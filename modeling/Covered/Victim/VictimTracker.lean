import Covered.Victim.VictimsyncMonitor

/-!
# Victim tracker

The victim tracker of an edge holds what the edge knows about the victims of all edges: for each
edge the free bytes of its cache and its victims (`EdgelevelVictimMetadata`), for each victim key
the directory infos and the number of edges that have the key as a victim (`VictimDirinfo`), and
for each neighbor the synchronization monitor.

Edges are numbered; the vectors of the source are functions of the number. The byte count is a
natural number: additions do not reach `2 ^ 64`, and the checked subtraction of the source, which
clamps to `0`, is the subtraction of natural numbers.

The tracker asks the cooperation wrapper for the beacon of a key and for the directory infos of the
keys beaconed locally. These are `CooperationView`; the local directory table answers with a
complete set.
-/

set_option autoImplicit false

namespace Covered.Victim

open Common Cooperation Lib Lib.Checked VictimSyncset

/-! ## Edge-level victim metadata -/

/-- Free bytes and victims of one edge. An edge that was never heard from has none. -/
structure EdgelevelVictimMetadata where
  cacheMarginBytes : Nat
  victimCacheinfos : List VictimCacheinfo

namespace EdgelevelVictimMetadata

/-- Remove the victim of a key, if any, and count its bytes. -/
def removeVictim (acc : List VictimCacheinfo × Nat) (key : Key) : List VictimCacheinfo × Nat :=
  match KeyedList.find VictimCacheinfo.key key acc.1 with
  | none => acc
  | some v => (KeyedList.erase VictimCacheinfo.key key acc.1, acc.2 + v.getSizeForCapacity)

/-- Remove the victims of the given keys; returns also the bytes removed. -/
def removeVictimsForPlacement (metadata : EdgelevelVictimMetadata) (victimKeyset : List Key) :
    EdgelevelVictimMetadata × Nat :=
  let (victims, removedCacheinfosSize) :=
    victimKeyset.foldl removeVictim (metadata.victimCacheinfos, 0)
  ({ metadata with victimCacheinfos := victims }, removedCacheinfosSize)

end EdgelevelVictimMetadata

/-! ## Victim dirinfo -/

/-- The directory infos of a victim key, always a complete set. -/
structure VictimDirinfo where
  refcnt : Nat
  beaconEdgeIdx : Nat
  dirinfoSet : DirinfoSet
  complete : dirinfoSet.isComplete = true

namespace VictimDirinfo

/-- No reference and no directory info yet. -/
def create (beaconEdgeIdx : Nat) : VictimDirinfo where
  refcnt := 0
  beaconEdgeIdx := beaconEdgeIdx
  dirinfoSet := .ofList []
  complete := DirinfoSet.isComplete_ofList _

def incrRefcnt (d : VictimDirinfo) : VictimDirinfo := { d with refcnt := d.refcnt + 1 }

/-- One reference less; no reference stays no reference. -/
def decrRefcnt (d : VictimDirinfo) : VictimDirinfo := { d with refcnt := d.refcnt - 1 }

def setDirinfoSet (d : VictimDirinfo) (dirinfoSet : DirinfoSet) : Option VictimDirinfo :=
  if h : dirinfoSet.isComplete = true then
    some { d with dirinfoSet := dirinfoSet, complete := h }
  else none

/-- Insert or erase a directory info; returns also whether that changed the set. -/
def updateDirinfoSet (d : VictimDirinfo) (isAdmit : Bool) (directoryInfo : DirectoryInfo) :
    Option (VictimDirinfo × Bool) := do
  let isMember := decide (directoryInfo ∈ d.dirinfoSet.dirinfoSet)
  let dirinfoSet ←
    if isAdmit then d.dirinfoSet.tryToInsertIfComplete directoryInfo
    else d.dirinfoSet.tryToEraseIfComplete directoryInfo
  let updated ← d.setDirinfoSet dirinfoSet
  return (updated, isAdmit != isMember)

def getSizeForCapacity (d : VictimDirinfo) : Nat := 4 + d.dirinfoSet.getSizeForCapacity

end VictimDirinfo

/-! ## The tracker -/

/-- What the tracker asks the cooperation wrapper for: the beacon of a key and the directory infos
that the local directory table has for a key. -/
structure CooperationView where
  getBeaconEdgeIdx : Key → Nat
  localDirinfos : Key → List DirectoryInfo

namespace CooperationView

/-- The beacon of a victim, unless the victim says it itself. -/
def beaconOf (view : CooperationView) (v : VictimCacheinfo) : Nat :=
  v.beaconEdgeidx.getD (view.getBeaconEdgeIdx v.key)

/-- The directory infos of the victims that are beaconed by the edge itself. -/
def getLocalBeaconedVictimsFromCacheinfos (view : CooperationView) (edgeIdx : Nat) :
    List VictimCacheinfo → Option (List (Key × DirinfoSet))
  | [] => some []
  | v :: rest => do
      require (v.isFullyDeduped = false)
      let others ← view.getLocalBeaconedVictimsFromCacheinfos edgeIdx rest
      return if v.isStale then others
        else if view.beaconOf v = edgeIdx then
          (v.key, DirinfoSet.ofList (view.localDirinfos v.key)) :: others
        else others

end CooperationView

/-- The victim tracker of one edge. -/
structure VictimTracker where
  edgeIdx : Nat
  peredgeSyncedVictimcnt : Nat
  peredgeMonitoredVictimsetcnt : Nat
  sizeBytes : Nat
  peredgeVictimMetadata : Nat → Option EdgelevelVictimMetadata
  perkeyVictimDirinfo : List (Key × VictimDirinfo)
  peredgeVictimsyncMonitor : Nat → VictimsyncMonitor

namespace VictimTracker

/-- The tracker of an edge that has not heard from any edge. -/
def create (edgeIdx edgecnt peredgeSyncedVictimcnt peredgeMonitoredVictimsetcnt : Nat) :
    VictimTracker where
  edgeIdx := edgeIdx
  peredgeSyncedVictimcnt := peredgeSyncedVictimcnt
  peredgeMonitoredVictimsetcnt := peredgeMonitoredVictimsetcnt
  sizeBytes := edgecnt * ({} : VictimsyncMonitor).getSizeForCapacity
  peredgeVictimMetadata := fun _ => none
  perkeyVictimDirinfo := []
  peredgeVictimsyncMonitor := fun _ => {}

/-- Free bytes of an edge, `0` if it was never heard from. -/
def cacheMarginOf (t : VictimTracker) (edgeIdx : Nat) : Nat :=
  (t.peredgeVictimMetadata edgeIdx).elim 0 EdgelevelVictimMetadata.cacheMarginBytes

/-- Victims of an edge, none if it was never heard from. -/
def victimsOf (t : VictimTracker) (edgeIdx : Nat) : List VictimCacheinfo :=
  (t.peredgeVictimMetadata edgeIdx).elim [] EdgelevelVictimMetadata.victimCacheinfos

/-- The byte count after a part has changed its size. -/
def adjustSize (sizeBytes start finish : Nat) : Nat :=
  if finish > start then sizeBytes + (finish - start)
  else if finish < start then sizeBytes - (start - finish)
  else sizeBytes

/-! ## Update and removal of victims -/

/-- One reference less to the directory infos of a key; the last one removes them. -/
def tryToReleaseVictimDirinfo (t : VictimTracker) (key : Key) : VictimTracker :=
  match KeyedList.find Prod.fst key t.perkeyVictimDirinfo with
  | none => t
  | some (_, d) =>
      let released := d.decrRefcnt
      if released.refcnt = 0 then
        { t with
          sizeBytes := t.sizeBytes - (key.getKeyLength + released.getSizeForCapacity)
          perkeyVictimDirinfo := KeyedList.erase Prod.fst key t.perkeyVictimDirinfo }
      else
        { t with
          perkeyVictimDirinfo :=
            KeyedList.replace Prod.fst key (key, released) t.perkeyVictimDirinfo }

/-- Append the directory infos of a new key, with one reference. -/
def pushVictimDirinfo (t : VictimTracker) (key : Key) (d : VictimDirinfo) : VictimTracker :=
  { t with
    sizeBytes := t.sizeBytes + (key.getKeyLength + d.incrRefcnt.getSizeForCapacity)
    perkeyVictimDirinfo := t.perkeyVictimDirinfo ++ [(key, d.incrRefcnt)] }

/-- Count a latest synced victim. -/
def addSyncedVictim (view : CooperationView) (t : VictimTracker) (v : VictimCacheinfo) :
    Option VictimTracker := do
  require (v.isComplete = true)
  let t₁ := { t with sizeBytes := t.sizeBytes + v.getSizeForCapacity }
  return match KeyedList.find Prod.fst v.key t₁.perkeyVictimDirinfo with
    | none => t₁.pushVictimDirinfo v.key (.create (view.beaconOf v))
    | some (_, d) =>
        { t₁ with
          perkeyVictimDirinfo :=
            KeyedList.replace Prod.fst v.key (v.key, d.incrRefcnt) t₁.perkeyVictimDirinfo }

/-- Discount an old synced victim. -/
def removeSyncedVictim (t : VictimTracker) (v : VictimCacheinfo) : Option VictimTracker := do
  require (v.isComplete = true)
  let t₁ := { t with sizeBytes := t.sizeBytes - v.getSizeForCapacity }
  return t₁.tryToReleaseVictimDirinfo v.key

/-- Replace the free bytes and the victims of an edge. -/
def replaceVictimMetadataForEdgeIdx (t : VictimTracker) (edgeIdx cacheMarginBytes : Nat)
    (victims : List VictimCacheinfo) (view : CooperationView) : Option VictimTracker := do
  require (victims.length ≤ t.peredgeSyncedVictimcnt)
  let t₁ := { t with
    sizeBytes := if (t.peredgeVictimMetadata edgeIdx).isSome then t.sizeBytes else t.sizeBytes + 8
    peredgeVictimMetadata :=
      Function.update t.peredgeVictimMetadata edgeIdx (some ⟨cacheMarginBytes, victims⟩) }
  let t₂ ← victims.foldlM (addSyncedVictim view) t₁
  (t.victimsOf edgeIdx).foldlM removeSyncedVictim t₂

/-- Add the directory infos of a locally beaconed key that are missing. -/
def insertMissingDirinfo (t : VictimTracker) (pair : Key × DirinfoSet) (isLocalBeaconed : Bool) :
    Option VictimTracker :=
  if isLocalBeaconed = true ∧ KeyedList.find Prod.fst pair.1 t.perkeyVictimDirinfo = none then do
    let d ← (VictimDirinfo.create t.edgeIdx).setDirinfoSet pair.2
    return t.pushVictimDirinfo pair.1 d
  else some t

/-- Replace the directory infos of one key, if the key is tracked. -/
def replaceVictimDirinfoSet (isLocalBeaconed : Bool) (t : VictimTracker)
    (pair : Key × DirinfoSet) : Option VictimTracker := do
  require (pair.2.isComplete = true)
  let t₁ ← t.insertMissingDirinfo pair isLocalBeaconed
  match KeyedList.find Prod.fst pair.1 t₁.perkeyVictimDirinfo with
  | none => return t₁
  | some (_, d) => do
      let d' ← d.setDirinfoSet pair.2
      return { t₁ with
        sizeBytes := adjustSize t₁.sizeBytes d.getSizeForCapacity d'.getSizeForCapacity
        perkeyVictimDirinfo :=
          KeyedList.replace Prod.fst pair.1 (pair.1, d') t₁.perkeyVictimDirinfo }

def replaceVictimDirinfoSets (t : VictimTracker) (sets : List (Key × DirinfoSet))
    (isLocalBeaconed : Bool) : Option VictimTracker :=
  sets.foldlM (replaceVictimDirinfoSet isLocalBeaconed) t

/-! ## Local victims -/

def updateLocalCacheMarginBytes (t : VictimTracker) (localCacheMarginBytes : Nat) :
    VictimTracker :=
  match t.peredgeVictimMetadata t.edgeIdx with
  | none =>
      { t with
        sizeBytes := t.sizeBytes + 8
        peredgeVictimMetadata :=
          Function.update t.peredgeVictimMetadata t.edgeIdx (some ⟨localCacheMarginBytes, []⟩) }
  | some metadata =>
      { t with
        peredgeVictimMetadata := Function.update t.peredgeVictimMetadata t.edgeIdx
          (some { metadata with cacheMarginBytes := localCacheMarginBytes }) }

/-- Replace the directory infos of the victims that are beaconed by the edge itself. -/
def replaceLocalBeaconedDirinfoSets (t : VictimTracker) (victims : List VictimCacheinfo)
    (view : CooperationView) : Option VictimTracker := do
  let sets ← view.getLocalBeaconedVictimsFromCacheinfos t.edgeIdx victims
  require (sets.length ≤ victims.length)
  t.replaceVictimDirinfoSets sets true

def updateLocalSyncedVictims (t : VictimTracker) (localCacheMarginBytes : Nat)
    (victims : List VictimCacheinfo) (view : CooperationView) : Option VictimTracker := do
  let t₁ ← t.replaceVictimMetadataForEdgeIdx t.edgeIdx localCacheMarginBytes victims view
  t₁.replaceLocalBeaconedDirinfoSets victims view

def updateLocalBeaconedVictimDirinfo (t : VictimTracker) (key : Key) (isAdmit : Bool)
    (directoryInfo : DirectoryInfo) : Option VictimTracker :=
  match KeyedList.find Prod.fst key t.perkeyVictimDirinfo with
  | none => some t
  | some (_, d) => do
      let (d', isUpdate) ← d.updateDirinfoSet isAdmit directoryInfo
      return { t with
        sizeBytes :=
          if isUpdate then
            if isAdmit then t.sizeBytes + directoryInfo.getSizeForCapacity
            else t.sizeBytes - directoryInfo.getSizeForCapacity
          else t.sizeBytes
        perkeyVictimDirinfo := KeyedList.replace Prod.fst key (key, d') t.perkeyVictimDirinfo }

/-- Remove the victims of an edge that a placement will evict. -/
def removeVictimsForGivenEdge (t : VictimTracker) (edgeIdx : Nat) (victimKeyset : List Key) :
    Option VictimTracker := do
  let metadata ← t.peredgeVictimMetadata edgeIdx
  let (remaining, removedCacheinfosSize) := metadata.removeVictimsForPlacement victimKeyset
  let t₁ := { t with
    sizeBytes := t.sizeBytes - removedCacheinfosSize
    peredgeVictimMetadata := Function.update t.peredgeVictimMetadata edgeIdx (some remaining) }
  return victimKeyset.foldl tryToReleaseVictimDirinfo t₁

/-! ## Synchronization -/

/-- The complete syncset of an edge as the tracker has it, without a sequence number. -/
def getVictimSyncset (t : VictimTracker) (edgeIdx : Nat) : Option VictimSyncset := do
  let s₀ := VictimSyncset.createEmpty 0 false
  let s₁ := (s₀.setCacheMarginBytes (t.cacheMarginOf edgeIdx)).setLocalSyncedVictims
    (t.victimsOf edgeIdx)
  let s₂ ← (t.perkeyVictimDirinfo.filter fun pair => pair.2.beaconEdgeIdx = edgeIdx).foldlM
    (fun s pair => s.pushLocalBeaconedVictimForComplete pair.1 pair.2.dirinfoSet) s₁
  require (s₂.isComplete = true)
  return s₂

/-- Replace the monitor for a neighbor. -/
def setMonitor (t : VictimTracker) (edgeIdx : Nat) (m : VictimsyncMonitor) : VictimTracker :=
  { t with
    sizeBytes := adjustSize t.sizeBytes
      (t.peredgeVictimsyncMonitor edgeIdx).getSizeForCapacity m.getSizeForCapacity
    peredgeVictimsyncMonitor := Function.update t.peredgeVictimsyncMonitor edgeIdx m }

/-- The syncset to piggyback to an edge. -/
def getLocalVictimSyncsetForSynchronization (t : VictimTracker) (dstEdgeIdx : Nat)
    (latestLocalCacheMarginBytes : Nat) : Option (VictimTracker × VictimSyncset) := do
  let current ← t.getVictimSyncset t.edgeIdx
  require (current.isComplete = true)
  let (m, final) ← (t.peredgeVictimsyncMonitor dstEdgeIdx).replacePrevVictimSyncset
    (current.setCacheMarginBytes latestLocalCacheMarginBytes)
  return (t.setMonitor dstEdgeIdx m, final)

/-- Apply a reconstructed syncset of an edge. -/
def applyNeighborVictimSyncset (t : VictimTracker) (sourceEdgeIdx syncedSeqnum : Nat)
    (final : VictimSyncset) (view : CooperationView) : Option VictimTracker := do
  require (final.isComplete = true)
  require (syncedSeqnum ≤ final.seqnum)
  let cacheMarginBytes ← final.getCacheMarginBytesOrDelta.getLeft?
  let (victims, withCompleteVictims) := final.getLocalSyncedVictims
  require (withCompleteVictims = true)
  let (dirinfoSets, withCompleteDirinfoSets) := final.getLocalBeaconedVictims
  require (withCompleteDirinfoSets = true)
  let t₁ ← t.replaceVictimMetadataForEdgeIdx sourceEdgeIdx cacheMarginBytes victims view
  let t₂ ← t₁.replaceVictimDirinfoSets dirinfoSets false
  t₂.replaceLocalBeaconedDirinfoSets victims view

/-- The monitor for a neighbor after the flag of its syncset, which is obeyed whatever the sequence
number is. -/
def obeyEnforcement (t : VictimTracker) (sourceEdgeIdx : Nat) (neighbor : VictimSyncset) :
    VictimsyncMonitor :=
  if neighbor.isEnforceComplete then (t.peredgeVictimsyncMonitor sourceEdgeIdx).enforceComplete
  else t.peredgeVictimsyncMonitor sourceEdgeIdx

/-- The complete syncset of a neighbor as the tracker has it, with the tracked sequence number. -/
def existingVictimSyncset (t : VictimTracker) (sourceEdgeIdx : Nat) : Option VictimSyncset := do
  let s ← t.getVictimSyncset sourceEdgeIdx
  return s.setSeqnum (t.peredgeVictimsyncMonitor sourceEdgeIdx).trackedSeqnum

/-- Process a syncset of a neighbor. -/
def updateForNeighborVictimSyncset (t : VictimTracker) (sourceEdgeIdx : Nat)
    (neighbor : VictimSyncset) (view : CooperationView) : Option VictimTracker := do
  let m := t.obeyEnforcement sourceEdgeIdx neighbor
  let (m', toApply) ← m.receive t.peredgeMonitoredVictimsetcnt
    (t.existingVictimSyncset sourceEdgeIdx) neighbor
  match toApply with
  | none => return t.setMonitor sourceEdgeIdx m'
  | some final => do
      let t₁ ← t.applyNeighborVictimSyncset sourceEdgeIdx neighbor.seqnum final view
      return t₁.setMonitor sourceEdgeIdx m'

/-! ## What the operations leave alone -/

/-- The two trackers differ at most in the directory infos and the byte count. -/
structure SameTracking (t t' : VictimTracker) : Prop where
  edgeIdx : t'.edgeIdx = t.edgeIdx
  syncedVictimcnt : t'.peredgeSyncedVictimcnt = t.peredgeSyncedVictimcnt
  monitoredVictimsetcnt : t'.peredgeMonitoredVictimsetcnt = t.peredgeMonitoredVictimsetcnt
  metadata : t'.peredgeVictimMetadata = t.peredgeVictimMetadata
  monitor : t'.peredgeVictimsyncMonitor = t.peredgeVictimsyncMonitor

section Frame

variable {t t' t'' : VictimTracker}

theorem SameTracking.refl (t : VictimTracker) : SameTracking t t :=
  ⟨rfl, rfl, rfl, rfl, rfl⟩

theorem SameTracking.trans (h : SameTracking t t') (h' : SameTracking t' t'') :
    SameTracking t t'' :=
  ⟨h'.edgeIdx.trans h.edgeIdx, h'.syncedVictimcnt.trans h.syncedVictimcnt,
    h'.monitoredVictimsetcnt.trans h.monitoredVictimsetcnt, h'.metadata.trans h.metadata,
    h'.monitor.trans h.monitor⟩

theorem sameTracking_tryToReleaseVictimDirinfo (t : VictimTracker) (key : Key) :
    SameTracking t (t.tryToReleaseVictimDirinfo key) := by
  unfold tryToReleaseVictimDirinfo
  split
  · exact .refl t
  · dsimp only
    split
    · exact ⟨rfl, rfl, rfl, rfl, rfl⟩
    · exact ⟨rfl, rfl, rfl, rfl, rfl⟩

variable {view : CooperationView} {v : VictimCacheinfo}

theorem sameTracking_addSyncedVictim (h : addSyncedVictim view t v = some t') :
    SameTracking t t' := by
  simp only [addSyncedVictim, require_bind_iff] at h
  obtain ⟨-, h⟩ := h
  rw [pure_eq_some_iff] at h
  subst h
  split
  · exact ⟨rfl, rfl, rfl, rfl, rfl⟩
  · exact ⟨rfl, rfl, rfl, rfl, rfl⟩

theorem addSyncedVictim_isSome (view : CooperationView) (t : VictimTracker)
    (hv : v.isComplete = true) : ∃ t', addSyncedVictim view t v = some t' := by
  simp only [addSyncedVictim, require_bind hv]
  exact ⟨_, rfl⟩

theorem sameTracking_removeSyncedVictim (h : removeSyncedVictim t v = some t') :
    SameTracking t t' := by
  simp only [removeSyncedVictim, require_bind_iff] at h
  obtain ⟨-, h⟩ := h
  rw [pure_eq_some_iff] at h
  subst h
  have hsize : SameTracking t { t with sizeBytes := t.sizeBytes - v.getSizeForCapacity } :=
    ⟨rfl, rfl, rfl, rfl, rfl⟩
  exact hsize.trans (sameTracking_tryToReleaseVictimDirinfo _ v.key)

theorem removeSyncedVictim_isSome (t : VictimTracker) (hv : v.isComplete = true) :
    ∃ t', removeSyncedVictim t v = some t' := by
  simp only [removeSyncedVictim, require_bind hv]
  exact ⟨_, rfl⟩

variable {pair : Key × DirinfoSet} {isLocalBeaconed : Bool}

theorem sameTracking_insertMissingDirinfo
    (h : t.insertMissingDirinfo pair isLocalBeaconed = some t') : SameTracking t t' := by
  unfold insertMissingDirinfo at h
  split at h
  · obtain ⟨d, -, h⟩ := bind_eq_some_iff.1 h
    cases h
    exact ⟨rfl, rfl, rfl, rfl, rfl⟩
  · cases h
    exact .refl t

theorem sameTracking_replaceVictimDirinfoSet
    (h : replaceVictimDirinfoSet isLocalBeaconed t pair = some t') : SameTracking t t' := by
  simp only [replaceVictimDirinfoSet, require_bind_iff] at h
  obtain ⟨-, h⟩ := h
  obtain ⟨t₁, h₁, h⟩ := bind_eq_some_iff.1 h
  refine (sameTracking_insertMissingDirinfo h₁).trans ?_
  split at h
  · cases h
    exact .refl _
  · obtain ⟨d', -, h⟩ := bind_eq_some_iff.1 h
    cases h
    exact ⟨rfl, rfl, rfl, rfl, rfl⟩

theorem replaceVictimDirinfoSet_isSome (isLocalBeaconed : Bool) (t : VictimTracker)
    (hpair : pair.2.isComplete = true) :
    ∃ t', replaceVictimDirinfoSet isLocalBeaconed t pair = some t' := by
  have hset : ∀ d : VictimDirinfo, ∃ d', d.setDirinfoSet pair.2 = some d' := by
    intro d
    rw [VictimDirinfo.setDirinfoSet, dif_pos hpair]
    exact ⟨_, rfl⟩
  obtain ⟨t₁, h₁⟩ : ∃ t₁, t.insertMissingDirinfo pair isLocalBeaconed = some t₁ := by
    unfold insertMissingDirinfo
    split
    · obtain ⟨d, hd⟩ := hset (.create t.edgeIdx)
      simp only [hd, some_bind]
      exact ⟨_, rfl⟩
    · exact ⟨_, rfl⟩
  simp only [replaceVictimDirinfoSet, Option.bind_eq_bind, require_bind_of hpair, h₁,
    Option.bind_some]
  split
  · exact ⟨_, rfl⟩
  · next d _ =>
    obtain ⟨d', hd'⟩ := hset d
    simp only [hd', Option.bind_some]
    exact ⟨_, rfl⟩

theorem sameTracking_replaceVictimDirinfoSets {sets : List (Key × DirinfoSet)}
    (h : t.replaceVictimDirinfoSets sets isLocalBeaconed = some t') :
    SameTracking t t' :=
  foldlM_invariant (P := SameTracking t)
    (fun _ _ _ _ hsame hstep => hsame.trans (sameTracking_replaceVictimDirinfoSet hstep))
    (.refl t) h

theorem replaceVictimDirinfoSets_isSome (t : VictimTracker) {sets : List (Key × DirinfoSet)}
    (hsets : ∀ pair ∈ sets, pair.2.isComplete = true) (isLocalBeaconed : Bool) :
    ∃ t', t.replaceVictimDirinfoSets sets isLocalBeaconed = some t' := by
  obtain ⟨t', h, -⟩ := foldlM_isSome (P := fun _ => True) (s := t)
    (f := replaceVictimDirinfoSet isLocalBeaconed) (l := sets)
    (fun u pair hpair _ => by
      obtain ⟨u', hu'⟩ := replaceVictimDirinfoSet_isSome isLocalBeaconed u (hsets pair hpair)
      exact ⟨u', hu', trivial⟩) trivial
  exact ⟨t', h⟩

/-! ## Replacement of the victims of an edge -/

/-- The tracker with the given free bytes and victims of an edge. -/
def withMetadata (t : VictimTracker) (edgeIdx cacheMarginBytes : Nat)
    (victims : List VictimCacheinfo) : VictimTracker :=
  { t with
    peredgeVictimMetadata :=
      Function.update t.peredgeVictimMetadata edgeIdx (some ⟨cacheMarginBytes, victims⟩) }

theorem metadata_withMetadata (t : VictimTracker) (edgeIdx cacheMarginBytes : Nat)
    (victims : List VictimCacheinfo) (other : Nat) :
    (t.withMetadata edgeIdx cacheMarginBytes victims).peredgeVictimMetadata other =
      if other = edgeIdx then some ⟨cacheMarginBytes, victims⟩
      else t.peredgeVictimMetadata other := by
  simp only [withMetadata, Function.update_apply]

/-- All victims that the tracker holds are complete. -/
def CompleteMetadata (t : VictimTracker) : Prop :=
  ∀ edgeIdx, ∀ v ∈ t.victimsOf edgeIdx, v.isComplete = true

section Replace

variable {edgeIdx cacheMarginBytes : Nat} {victims : List VictimCacheinfo} {view : CooperationView}

theorem replaceVictimMetadataForEdgeIdx_cases
    (h : t.replaceVictimMetadataForEdgeIdx edgeIdx cacheMarginBytes victims view = some t') :
    victims.length ≤ t.peredgeSyncedVictimcnt ∧
      SameTracking (t.withMetadata edgeIdx cacheMarginBytes victims) t' := by
  simp only [replaceVictimMetadataForEdgeIdx, require_bind_iff] at h
  obtain ⟨hlength, h⟩ := h
  obtain ⟨t₂, hadd, hremove⟩ := bind_eq_some_iff.1 h
  refine ⟨hlength, ?_⟩
  have hadded : SameTracking (t.withMetadata edgeIdx cacheMarginBytes victims) t₂ := by
    refine foldlM_invariant (f := addSyncedVictim view) ?_ ?_ hadd
    · exact fun _ _ _ _ hsame hstep => hsame.trans (sameTracking_addSyncedVictim hstep)
    · exact ⟨rfl, rfl, rfl, rfl, rfl⟩
  refine foldlM_invariant (f := removeSyncedVictim) ?_ hadded hremove
  exact fun _ _ _ _ hsame hstep => hsame.trans (sameTracking_removeSyncedVictim hstep)

theorem replaceVictimMetadataForEdgeIdx_isSome (ht : t.CompleteMetadata)
    (edgeIdx cacheMarginBytes : Nat) (view : CooperationView)
    (hlength : victims.length ≤ t.peredgeSyncedVictimcnt)
    (hvictims : ∀ v ∈ victims, v.isComplete = true) :
    ∃ t', t.replaceVictimMetadataForEdgeIdx edgeIdx cacheMarginBytes victims view = some t' := by
  simp only [replaceVictimMetadataForEdgeIdx, require_bind hlength]
  obtain ⟨t₂, hadd, -⟩ := foldlM_isSome (P := fun _ => True) (f := addSyncedVictim view)
    (l := victims) (s := { t with
      sizeBytes :=
        if (t.peredgeVictimMetadata edgeIdx).isSome then t.sizeBytes else t.sizeBytes + 8
      peredgeVictimMetadata :=
        Function.update t.peredgeVictimMetadata edgeIdx (some ⟨cacheMarginBytes, victims⟩) })
    (fun u v hv _ => by
      obtain ⟨u', hu'⟩ := addSyncedVictim_isSome view u (hvictims v hv)
      exact ⟨u', hu', trivial⟩) trivial
  obtain ⟨t', hremove, -⟩ := foldlM_isSome (P := fun _ => True) (f := removeSyncedVictim)
    (s := t₂) (fun u v hv _ => by
      obtain ⟨u', hu'⟩ := removeSyncedVictim_isSome u (ht edgeIdx v hv)
      exact ⟨u', hu', trivial⟩) trivial
  exact ⟨t', by rw [hadd]; exact hremove⟩

/-- The locally beaconed victims are asked for without an abort, and each answer is complete. -/
theorem getLocalBeaconedVictims_spec (view : CooperationView) (edgeIdx : Nat)
    (hvictims : ∀ v ∈ victims, v.isComplete = true) :
    ∃ sets, view.getLocalBeaconedVictimsFromCacheinfos edgeIdx victims = some sets ∧
      sets.length ≤ victims.length ∧ ∀ pair ∈ sets, pair.2.isComplete = true := by
  induction victims with
  | nil => exact ⟨[], rfl, le_refl _, by simp⟩
  | cons v rest ih =>
    obtain ⟨sets, hsets, hlength, hcomplete⟩ :=
      ih fun w hw => hvictims w (List.mem_cons_of_mem v hw)
    have hfully : v.isFullyDeduped = false := by
      rw [VictimCacheinfo.isFullyDeduped,
        VictimCacheinfo.bitmap_of_isComplete (hvictims v List.mem_cons_self)]
      decide
    have hstale := VictimCacheinfo.isStale_of_isComplete (hvictims v List.mem_cons_self)
    simp only [CooperationView.getLocalBeaconedVictimsFromCacheinfos, require_bind hfully, hsets,
      some_bind, hstale, Option.pure_def]
    refine ⟨_, rfl, ?_⟩
    rw [if_neg (by decide)]
    split
    · refine ⟨Nat.succ_le_succ hlength, fun pair hpair => ?_⟩
      rcases List.mem_cons.1 hpair with rfl | hpair
      · exact DirinfoSet.isComplete_ofList _
      · exact hcomplete pair hpair
    · exact ⟨le_trans hlength (Nat.le_succ _), hcomplete⟩

theorem sameTracking_replaceLocalBeaconedDirinfoSets
    (h : t.replaceLocalBeaconedDirinfoSets victims view = some t') : SameTracking t t' := by
  simp only [replaceLocalBeaconedDirinfoSets, bind_eq_some_iff, require_eq_some_iff] at h
  obtain ⟨sets, -, -, -, h⟩ := h
  exact sameTracking_replaceVictimDirinfoSets h

theorem replaceLocalBeaconedDirinfoSets_isSome (t : VictimTracker) (view : CooperationView)
    (hvictims : ∀ v ∈ victims, v.isComplete = true) :
    ∃ t', t.replaceLocalBeaconedDirinfoSets victims view = some t' := by
  obtain ⟨sets, hsets, hlength, hcomplete⟩ :=
    getLocalBeaconedVictims_spec view t.edgeIdx hvictims
  simp only [replaceLocalBeaconedDirinfoSets, hsets, some_bind, require_bind hlength]
  exact replaceVictimDirinfoSets_isSome t hcomplete true

end Replace

/-! ## Synchronization -/

/-- The tracker's syncset of an edge. -/
theorem getVictimSyncset_spec (t : VictimTracker) (edgeIdx : Nat) :
    ∃ s, t.getVictimSyncset edgeIdx = some s ∧ s.isComplete = true ∧
      s.cacheMarginBytes = t.cacheMarginOf edgeIdx ∧
      s.localSyncedVictims = t.victimsOf edgeIdx ∧
      VictimSyncset.CompleteDirinfos s.localBeaconedVictims := by
  have hempty : (createEmpty 0 false).isComplete = true := by decide
  obtain ⟨s, hfold, hcomplete, hmargin, hvictims, hdirinfos⟩ := foldlM_isSome
    (P := fun s : VictimSyncset => s.isComplete = true ∧
      s.cacheMarginBytes = t.cacheMarginOf edgeIdx ∧
      s.localSyncedVictims = t.victimsOf edgeIdx ∧
      VictimSyncset.CompleteDirinfos s.localBeaconedVictims)
    (f := fun s pair => s.pushLocalBeaconedVictimForComplete pair.1 pair.2.dirinfoSet)
    (l := t.perkeyVictimDirinfo.filter fun pair => pair.2.beaconEdgeIdx = edgeIdx)
    (s := ((createEmpty 0 false).setCacheMarginBytes
      (t.cacheMarginOf edgeIdx)).setLocalSyncedVictims (t.victimsOf edgeIdx))
    (fun s pair _ ⟨hcomplete, hmargin, hvictims, hdirinfos⟩ => by
      obtain ⟨s', hs', hcomplete', hmargin', hvictims', hbeaconed'⟩ :=
        pushLocalBeaconedVictim_spec hcomplete pair.1 pair.2.dirinfoSet
      refine ⟨s', hs', hcomplete', hmargin'.trans hmargin, hvictims'.trans hvictims, ?_⟩
      rw [hbeaconed']
      intro other hother
      rcases List.mem_append.1 hother with hother | hother
      · exact hdirinfos other hother
      · rw [List.mem_singleton.1 hother]
        exact pair.2.complete)
    ⟨by
      rw [isComplete_iff] at hempty ⊢
      intro part hpart
      simp only [part_setLocalSyncedVictims,
        part_setCacheMarginBytes] at hpart
      exact hempty part hpart.2.2, rfl, rfl, fun pair hpair => by cases hpair⟩
  refine ⟨s, ?_, hcomplete, hmargin, hvictims, hdirinfos⟩
  simp only [getVictimSyncset, hfold, some_bind, require_bind hcomplete, Option.pure_def]

/-- Inversion of a send. -/
theorem getLocalVictimSyncset_cases {dstEdgeIdx latestLocalCacheMarginBytes : Nat}
    {final : VictimSyncset}
    (h : t.getLocalVictimSyncsetForSynchronization dstEdgeIdx latestLocalCacheMarginBytes =
      some (t', final)) :
    ∃ current m, current.isComplete = true ∧
      current.cacheMarginBytes = latestLocalCacheMarginBytes ∧
      current.localSyncedVictims = t.victimsOf t.edgeIdx ∧
      VictimSyncset.CompleteDirinfos current.localBeaconedVictims ∧
      (t.peredgeVictimsyncMonitor dstEdgeIdx).replacePrevVictimSyncset current =
        some (m, final) ∧
      t' = t.setMonitor dstEdgeIdx m := by
  obtain ⟨s, hs, hcomplete, -, hvictims, hdirinfos⟩ := t.getVictimSyncset_spec t.edgeIdx
  simp only [getLocalVictimSyncsetForSynchronization, hs, some_bind, require_bind_iff] at h
  obtain ⟨-, h⟩ := h
  obtain ⟨⟨m, final'⟩, hreplace, h⟩ := bind_eq_some_iff.1 h
  cases h
  refine ⟨s.setCacheMarginBytes latestLocalCacheMarginBytes, m, ?_, rfl, hvictims, hdirinfos,
    hreplace, rfl⟩
  rw [isComplete_iff] at hcomplete ⊢
  intro part hpart
  rw [part_setCacheMarginBytes] at hpart
  exact hcomplete part hpart.2

section Neighbor

variable {sourceEdgeIdx syncedSeqnum : Nat} {neighbor final : VictimSyncset}
  {view : CooperationView}

theorem applyNeighborVictimSyncset_cases
    (h : t.applyNeighborVictimSyncset sourceEdgeIdx syncedSeqnum final view = some t') :
    final.localSyncedVictims.length ≤ t.peredgeSyncedVictimcnt ∧
      SameTracking (t.withMetadata sourceEdgeIdx final.cacheMarginBytes
        final.localSyncedVictims) t' := by
  simp only [applyNeighborVictimSyncset, bind_eq_some_iff, require_eq_some_iff] at h
  obtain ⟨-, -, -, -, bytes, hbytes, -, -, -, -, t₁, h₁, t₂, h₂, h⟩ := h
  have hmargin : bytes = final.cacheMarginBytes := by
    unfold getCacheMarginBytesOrDelta at hbytes
    split at hbytes
    · cases hbytes
    · cases hbytes
      rfl
  subst hmargin
  obtain ⟨hlength, hsame⟩ := replaceVictimMetadataForEdgeIdx_cases h₁
  exact ⟨hlength, (hsame.trans (sameTracking_replaceVictimDirinfoSets h₂)).trans
    (sameTracking_replaceLocalBeaconedDirinfoSets h)⟩

theorem applyNeighborVictimSyncset_isSome (ht : t.CompleteMetadata) (sourceEdgeIdx : Nat)
    (view : CooperationView) (hfinal : final.AllComplete)
    (hseqnum : syncedSeqnum ≤ final.seqnum)
    (hlength : final.localSyncedVictims.length ≤ t.peredgeSyncedVictimcnt) :
    ∃ t', t.applyNeighborVictimSyncset sourceEdgeIdx syncedSeqnum final view = some t' := by
  have hbytes : final.getCacheMarginBytesOrDelta.getLeft? = some final.cacheMarginBytes := by
    have hnot := hfinal.not_part .cacheMarginBytes
    rw [VictimSyncset.PartCompressed] at hnot
    rw [getCacheMarginBytesOrDelta, if_neg hnot]
    rfl
  obtain ⟨t₁, h₁⟩ := replaceVictimMetadataForEdgeIdx_isSome ht sourceEdgeIdx
    final.cacheMarginBytes view hlength hfinal.victims
  obtain ⟨t₂, h₂⟩ := replaceVictimDirinfoSets_isSome t₁ hfinal.dirinfos false
  obtain ⟨t₃, h₃⟩ := replaceLocalBeaconedDirinfoSets_isSome t₂ view hfinal.victims
  refine ⟨t₃, ?_⟩
  simp only [applyNeighborVictimSyncset, require_bind hfinal.complete, require_bind hseqnum, hbytes,
    some_bind, getLocalSyncedVictims_eq hfinal,
    getLocalBeaconedVictims_eq hfinal, require_bind, h₁, h₂, h₃]

/-- Inversion of a receipt: the monitor for the source is replaced, and the victims of the source
if there is a syncset to apply. -/
theorem updateForNeighborVictimSyncset_cases
    (h : t.updateForNeighborVictimSyncset sourceEdgeIdx neighbor view = some t') :
    ∃ m toApply, (t.obeyEnforcement sourceEdgeIdx neighbor).receive
        t.peredgeMonitoredVictimsetcnt (t.existingVictimSyncset sourceEdgeIdx) neighbor =
        some (m, toApply) ∧
      t'.edgeIdx = t.edgeIdx ∧ t'.peredgeSyncedVictimcnt = t.peredgeSyncedVictimcnt ∧
      t'.peredgeMonitoredVictimsetcnt = t.peredgeMonitoredVictimsetcnt ∧
      t'.peredgeVictimsyncMonitor =
        Function.update t.peredgeVictimsyncMonitor sourceEdgeIdx m ∧
      match toApply with
      | none => t'.peredgeVictimMetadata = t.peredgeVictimMetadata
      | some final => t'.peredgeVictimMetadata =
          Function.update t.peredgeVictimMetadata sourceEdgeIdx
            (some ⟨final.cacheMarginBytes, final.localSyncedVictims⟩) := by
  simp only [updateForNeighborVictimSyncset] at h
  obtain ⟨⟨m, toApply⟩, hreceive, h⟩ := bind_eq_some_iff.1 h
  refine ⟨m, toApply, hreceive, ?_⟩
  cases toApply with
  | none =>
    cases h
    exact ⟨rfl, rfl, rfl, rfl, rfl⟩
  | some final =>
    obtain ⟨t₁, h₁, h⟩ := bind_eq_some_iff.1 h
    cases h
    obtain ⟨-, hsame⟩ := applyNeighborVictimSyncset_cases h₁
    refine ⟨hsame.edgeIdx, hsame.syncedVictimcnt, hsame.monitoredVictimsetcnt, ?_, hsame.metadata⟩
    have hmonitor : t₁.peredgeVictimsyncMonitor = t.peredgeVictimsyncMonitor := hsame.monitor
    rw [setMonitor, hmonitor]

theorem updateForNeighborVictimSyncset_isSome (ht : t.CompleteMetadata) {m : VictimsyncMonitor}
    {toApply : Option VictimSyncset}
    (hreceive : (t.obeyEnforcement sourceEdgeIdx neighbor).receive
      t.peredgeMonitoredVictimsetcnt (t.existingVictimSyncset sourceEdgeIdx) neighbor =
      some (m, toApply))
    (happly : ∀ final, toApply = some final → final.AllComplete ∧
      neighbor.seqnum ≤ final.seqnum ∧
      final.localSyncedVictims.length ≤ t.peredgeSyncedVictimcnt) :
    ∃ t', t.updateForNeighborVictimSyncset sourceEdgeIdx neighbor view = some t' := by
  simp only [updateForNeighborVictimSyncset, hreceive, some_bind]
  cases toApply with
  | none => exact ⟨_, rfl⟩
  | some final =>
    obtain ⟨hcomplete, hseqnum, hlength⟩ := happly final rfl
    obtain ⟨t₁, h₁⟩ := applyNeighborVictimSyncset_isSome ht sourceEdgeIdx view hcomplete
      hseqnum hlength
    simp only [h₁]
    exact ⟨_, rfl⟩

end Neighbor

/-! ## Local updates -/

theorem sameTracking_updateLocalCacheMarginBytes (t : VictimTracker)
    (localCacheMarginBytes : Nat) :
    SameTracking (t.withMetadata t.edgeIdx localCacheMarginBytes (t.victimsOf t.edgeIdx))
      (t.updateLocalCacheMarginBytes localCacheMarginBytes) := by
  unfold updateLocalCacheMarginBytes victimsOf
  split
  · next hnone =>
    rw [hnone]
    exact ⟨rfl, rfl, rfl, rfl, rfl⟩
  · next metadata hsome =>
    rw [hsome]
    exact ⟨rfl, rfl, rfl, rfl, rfl⟩

/-- Inversion of an update of the local victims. -/
theorem updateLocalSyncedVictims_cases {localCacheMarginBytes : Nat}
    {victims : List VictimCacheinfo}
    (h : t.updateLocalSyncedVictims localCacheMarginBytes victims view = some t') :
    victims.length ≤ t.peredgeSyncedVictimcnt ∧
      SameTracking (t.withMetadata t.edgeIdx localCacheMarginBytes victims) t' := by
  simp only [updateLocalSyncedVictims, bind_eq_some_iff] at h
  obtain ⟨t₁, h₁, h⟩ := h
  obtain ⟨hlength, hsame⟩ := replaceVictimMetadataForEdgeIdx_cases h₁
  exact ⟨hlength, hsame.trans (sameTracking_replaceLocalBeaconedDirinfoSets h)⟩

theorem updateLocalSyncedVictims_isSome (ht : t.CompleteMetadata) {localCacheMarginBytes : Nat}
    {victims : List VictimCacheinfo} (hlength : victims.length ≤ t.peredgeSyncedVictimcnt)
    (hvictims : ∀ v ∈ victims, v.isComplete = true) :
    ∃ t', t.updateLocalSyncedVictims localCacheMarginBytes victims view = some t' := by
  obtain ⟨t₁, h₁⟩ := replaceVictimMetadataForEdgeIdx_isSome ht t.edgeIdx
    localCacheMarginBytes view hlength hvictims
  obtain ⟨t₂, h₂⟩ := replaceLocalBeaconedDirinfoSets_isSome t₁ view hvictims
  exact ⟨t₂, by simp only [updateLocalSyncedVictims, h₁, some_bind, h₂]⟩

theorem sameTracking_updateLocalBeaconedVictimDirinfo {key : Key} {isAdmit : Bool}
    {directoryInfo : DirectoryInfo}
    (h : t.updateLocalBeaconedVictimDirinfo key isAdmit directoryInfo = some t') :
    SameTracking t t' := by
  unfold updateLocalBeaconedVictimDirinfo at h
  split at h
  · cases h
    exact .refl t
  · obtain ⟨⟨d', isUpdate⟩, -, h⟩ := bind_eq_some_iff.1 h
    cases h
    exact ⟨rfl, rfl, rfl, rfl, rfl⟩

/-- Removal leaves a sublist of the victims of the edge. -/
theorem removeVictims_sublist (metadata : EdgelevelVictimMetadata) (victimKeyset : List Key) :
    ((metadata.removeVictimsForPlacement victimKeyset).1.victimCacheinfos).Sublist
      metadata.victimCacheinfos := by
  have key : ∀ (acc : List VictimCacheinfo × Nat),
      (victimKeyset.foldl EdgelevelVictimMetadata.removeVictim acc).1.Sublist acc.1 := by
    induction victimKeyset with
    | nil => exact fun acc => List.Sublist.refl _
    | cons k rest ih =>
      intro acc
      rw [List.foldl_cons]
      refine (ih _).trans ?_
      unfold EdgelevelVictimMetadata.removeVictim
      split
      · exact List.Sublist.refl _
      · exact KeyedList.erase_sublist
  exact key (metadata.victimCacheinfos, 0)

theorem removeVictimsForGivenEdge_cases {edgeIdx : Nat} {victimKeyset : List Key}
    (h : t.removeVictimsForGivenEdge edgeIdx victimKeyset = some t') :
    ∃ metadata remaining, t.peredgeVictimMetadata edgeIdx = some metadata ∧
      remaining.Sublist metadata.victimCacheinfos ∧
      SameTracking (t.withMetadata edgeIdx metadata.cacheMarginBytes remaining) t' := by
  simp only [removeVictimsForGivenEdge, bind_eq_some_iff] at h
  obtain ⟨metadata, hmetadata, h⟩ := h
  rw [pure_eq_some_iff] at h
  subst h
  refine ⟨metadata, _, hmetadata, removeVictims_sublist metadata victimKeyset, ?_⟩
  have key : ∀ (keys : List Key) (u : VictimTracker),
      SameTracking u (keys.foldl tryToReleaseVictimDirinfo u) := by
    intro keys
    induction keys with
    | nil => exact fun u => .refl u
    | cons k rest ih =>
      exact fun u => (sameTracking_tryToReleaseVictimDirinfo u k).trans (ih _)
  refine SameTracking.trans ?_ (key victimKeyset _)
  exact ⟨rfl, rfl, rfl, rfl, rfl⟩

end Frame

end VictimTracker

end Covered.Victim
