import Covered.Victim.TrackerOperations

/-!
# Byte count of the victim tracker

The tracker keeps one byte count for its monitors, the metadata of the edges and the directory infos
of the victims, and adjusts it by the difference that each change makes. `countedBytes` is what the
count stands for. `sizeBytes_exact` is that the count is this sum after every operation, from which
it follows that no decrement is larger than the count it is taken from (`NoUnderflow`).

A snapshot is the exception: the count is dumped and loaded as it is, while the previous syncsets
of the monitors are not. The count is exact if there are none when the tracker is dumped.
-/

set_option autoImplicit false

namespace Covered.Victim.VictimTracker

open Common Cooperation Lib Lib.Checked Lib.Execution KeyedList Function List
open EdgelevelVictimMetadata

/-! ## What the count stands for -/

/-- Bytes of the victims of an edge. -/
def victimsBytes (victims : List VictimCacheinfo) : Nat :=
  (victims.map VictimCacheinfo.getSizeForCapacity).sum

/-- Bytes of the metadata of an edge: the free bytes and the victims. -/
def metadataBytes (metadata : Option EdgelevelVictimMetadata) : Nat :=
  metadata.elim 0 fun m => 8 + victimsBytes m.victimCacheinfos

/-- Bytes of the directory infos with their keys. -/
def dirinfoBytes (dirinfos : List (Key × VictimDirinfo)) : Nat :=
  (dirinfos.map fun pair => pair.1.getKeyLength + pair.2.getSizeForCapacity).sum

/-- Bytes of all monitors and of the metadata of all edges. -/
def peredgeBytes (edgecnt : Nat) (t : VictimTracker) : Nat :=
  ∑ e ∈ Finset.range edgecnt, (t.peredgeVictimsyncMonitor e).getSizeForCapacity +
    ∑ e ∈ Finset.range edgecnt, metadataBytes (t.peredgeVictimMetadata e)

/-- Bytes of everything that the tracker holds. -/
def countedBytes (edgecnt : Nat) (t : VictimTracker) : Nat :=
  peredgeBytes edgecnt t + dirinfoBytes t.perkeyVictimDirinfo

/-! ## Subtractions of the operations -/

/-- A part may change its size from `start` to `finish`. -/
def AdjustFits (sizeBytes start finish : Nat) : Prop :=
  finish < start → start - finish ≤ sizeBytes

/-- The directory infos of a key may be dropped. -/
def ReleaseFits (t : VictimTracker) (key : Key) : Prop :=
  ∀ other d, KeyedList.find Prod.fst key t.perkeyVictimDirinfo = some (other, d) →
    key.getKeyLength + d.decrRefcnt.getSizeForCapacity ≤ t.sizeBytes

/-- An old synced victim may be discounted. -/
def RemoveFits (t : VictimTracker) (v : VictimCacheinfo) : Prop :=
  v.getSizeForCapacity ≤ t.sizeBytes ∧
    ReleaseFits { t with sizeBytes := t.sizeBytes - v.getSizeForCapacity } v.key

/-- The directory infos of a key may be replaced. -/
def ReplaceFits (isLocalBeaconed : Bool) (t : VictimTracker) (pair : Key × DirinfoSet) : Prop :=
  ∀ t₁ other d d', t.insertMissingDirinfo pair isLocalBeaconed = some t₁ →
    KeyedList.find Prod.fst pair.1 t₁.perkeyVictimDirinfo = some (other, d) →
    d.setDirinfoSet pair.2 = some d' →
    AdjustFits t₁.sizeBytes d.getSizeForCapacity d'.getSizeForCapacity

/-- A condition on every step of a loop, in the state before the step. -/
def EachStep {α : Type} (f : VictimTracker → α → Option VictimTracker)
    (P : VictimTracker → α → Prop) : VictimTracker → List α → Prop
  | _, [] => True
  | t, a :: rest => P t a ∧ ∀ t', f t a = some t' → EachStep f P t' rest

/-- The victims of an edge may be replaced: the latest are counted first. -/
def MetadataFits (t : VictimTracker) (edgeIdx cacheMarginBytes : Nat)
    (victims : List VictimCacheinfo) (view : CooperationView) : Prop :=
  ∀ t₂, victims.foldlM (addSyncedVictim view) { t with
      sizeBytes := if (t.peredgeVictimMetadata edgeIdx).isSome then t.sizeBytes else t.sizeBytes + 8
      peredgeVictimMetadata :=
        Function.update t.peredgeVictimMetadata edgeIdx (some ⟨cacheMarginBytes, victims⟩) } =
      some t₂ →
    EachStep removeSyncedVictim RemoveFits t₂ (t.victimsOf edgeIdx)

/-- The directory infos of the locally beaconed victims may be replaced. -/
def LocalBeaconedFits (t : VictimTracker) (victims : List VictimCacheinfo)
    (view : CooperationView) : Prop :=
  ∀ sets, view.getLocalBeaconedVictimsFromCacheinfos t.edgeIdx victims = some sets →
    EachStep (replaceVictimDirinfoSet true) (ReplaceFits true) t sets

/-- The monitor for a neighbor may be replaced. -/
def MonitorFits (t : VictimTracker) (edgeIdx : Nat) (m : VictimsyncMonitor) : Prop :=
  AdjustFits t.sizeBytes (t.peredgeVictimsyncMonitor edgeIdx).getSizeForCapacity
    m.getSizeForCapacity

/-- A reconstructed syncset may be applied. -/
def ApplyFits (t : VictimTracker) (sourceEdgeIdx : Nat) (final : VictimSyncset)
    (view : CooperationView) : Prop :=
  MetadataFits t sourceEdgeIdx final.cacheMarginBytes final.localSyncedVictims view ∧
  ∀ t₁, t.replaceVictimMetadataForEdgeIdx sourceEdgeIdx final.cacheMarginBytes
      final.localSyncedVictims view = some t₁ →
    EachStep (replaceVictimDirinfoSet false) (ReplaceFits false) t₁ final.localBeaconedVictims ∧
    ∀ t₂, t₁.replaceVictimDirinfoSets final.localBeaconedVictims false = some t₂ →
      LocalBeaconedFits t₂ final.localSyncedVictims view

/-- No subtraction of an operation exceeds the byte count, in the state in which it is made. -/
def NoUnderflow (t : VictimTracker) : Operation → Prop
  | .updateLocalCacheMarginBytes _ => True
  | .updateLocalSyncedVictims bytes victims view =>
      MetadataFits t t.edgeIdx bytes victims view ∧
      ∀ t₁, t.replaceVictimMetadataForEdgeIdx t.edgeIdx bytes victims view = some t₁ →
        LocalBeaconedFits t₁ victims view
  | .updateLocalBeaconedVictimDirinfo key isAdmit directoryInfo =>
      ∀ other d d' isUpdate,
        KeyedList.find Prod.fst key t.perkeyVictimDirinfo = some (other, d) →
        d.updateDirinfoSet isAdmit directoryInfo = some (d', isUpdate) →
        isUpdate = true → isAdmit = false → directoryInfo.getSizeForCapacity ≤ t.sizeBytes
  | .getLocalVictimSyncsetForSynchronization dst bytes =>
      ∀ t' final, t.getLocalVictimSyncsetForSynchronization dst bytes = some (t', final) →
        MonitorFits t dst (t'.peredgeVictimsyncMonitor dst)
  | .updateForNeighborVictimSyncset source neighbor view =>
      ∀ m toApply, (t.obeyEnforcement source neighbor).receive t.peredgeMonitoredVictimsetcnt
          (t.existingVictimSyncset source) neighbor = some (m, toApply) →
        match toApply with
        | none => MonitorFits t source m
        | some final =>
            ApplyFits t source final view ∧
            ∀ t₁, t.applyNeighborVictimSyncset source neighbor.seqnum final view = some t₁ →
              MonitorFits t₁ source m
  | .removeVictimsForGivenEdge edgeIdx victimKeyset =>
      ∀ metadata, t.peredgeVictimMetadata edgeIdx = some metadata →
        (metadata.removeVictimsForPlacement victimKeyset).2 ≤ t.sizeBytes ∧
        EachStep (fun t key => some (t.tryToReleaseVictimDirinfo key)) ReleaseFits
          { t with
            sizeBytes := t.sizeBytes - (metadata.removeVictimsForPlacement victimKeyset).2
            peredgeVictimMetadata := Function.update t.peredgeVictimMetadata edgeIdx
              (some (metadata.removeVictimsForPlacement victimKeyset).1) }
          victimKeyset
  | .dumpAndLoad => True

/-- The tracker is dumped only when no neighbor has a previous syncset. -/
def Operation.DumpsAll (edgecnt : Nat) (t : VictimTracker) : Operation → Prop
  | .dumpAndLoad => ∀ e < edgecnt, (t.peredgeVictimsyncMonitor e).prevVictimSyncset = none
  | _ => True

/-! ## Directory infos -/

/-- The byte count is that of the directory infos and of `rest` other bytes. -/
def Rests (rest : Nat) (t : VictimTracker) : Prop :=
  t.sizeBytes = rest + dirinfoBytes t.perkeyVictimDirinfo

section Dirinfos

variable {rest : Nat} {t t' : VictimTracker} {key other : Key} {d d' : VictimDirinfo}
  {v : VictimCacheinfo} {victims : List VictimCacheinfo} {view : CooperationView}

/-- Directory infos that are there are part of the count. -/
theorem Rests.dirinfo_le (h : Rests rest t)
    (hfind : find Prod.fst key t.perkeyVictimDirinfo = some (other, d)) :
    key.getKeyLength + d.getSizeForCapacity ≤ t.sizeBytes := by
  have hkey : other = key := key_of_find hfind
  have herase := sum_map_erase
    (fun pair : Key × VictimDirinfo => pair.1.getKeyLength + pair.2.getSizeForCapacity) hfind
  rw [Rests, dirinfoBytes] at h
  simp only [hkey] at herase
  omega

/-- Directory infos of another size take the place of those of a key. -/
theorem dirinfoBytes_replace (hfind : find Prod.fst key t.perkeyVictimDirinfo = some (other, d))
    (d' : VictimDirinfo) :
    dirinfoBytes (replace Prod.fst key (key, d') t.perkeyVictimDirinfo) +
        d.getSizeForCapacity =
      dirinfoBytes t.perkeyVictimDirinfo + d'.getSizeForCapacity := by
  have hkey : other = key := key_of_find hfind
  have hreplace := sum_map_replace
    (fun pair : Key × VictimDirinfo => pair.1.getKeyLength + pair.2.getSizeForCapacity) (key, d')
    hfind
  rw [hkey] at hreplace
  simp only [dirinfoBytes] at hreplace ⊢
  omega

theorem rests_push (h : Rests rest t) (key : Key) (d : VictimDirinfo) :
    Rests rest (t.pushVictimDirinfo key d) := by
  rw [Rests] at h ⊢
  simp only [pushVictimDirinfo, dirinfoBytes, map_append, sum_append, map_cons,
    map_nil, sum_cons, sum_nil] at h ⊢
  omega

theorem rests_tryToReleaseVictimDirinfo (h : Rests rest t) (key : Key) :
    ReleaseFits t key ∧ Rests rest (t.tryToReleaseVictimDirinfo key) := by
  constructor
  · intro other d hfind
    have hle := h.dirinfo_le hfind
    exact hle
  rw [tryToReleaseVictimDirinfo]
  split
  · exact h
  · next other d hfind =>
    have hkey : other = key := key_of_find hfind
    dsimp only
    split
    · have herase := sum_map_erase
        (fun pair : Key × VictimDirinfo => pair.1.getKeyLength + pair.2.getSizeForCapacity) hfind
      have hsize : d.decrRefcnt.getSizeForCapacity = d.getSizeForCapacity := rfl
      rw [Rests] at h ⊢
      simp only [dirinfoBytes, hkey] at h herase ⊢
      omega
    · have hreplace := dirinfoBytes_replace hfind d.decrRefcnt
      have hsize : d.decrRefcnt.getSizeForCapacity = d.getSizeForCapacity := rfl
      rw [Rests] at h ⊢
      dsimp only
      omega

theorem rests_addSyncedVictim (h : Rests rest t) (hadd : addSyncedVictim view t v = some t') :
    Rests (rest + v.getSizeForCapacity) t' := by
  simp only [addSyncedVictim, require_bind_iff] at hadd
  obtain ⟨-, hadd⟩ := hadd
  rw [pure_eq_some_iff] at hadd
  subst hadd
  have hsized : Rests (rest + v.getSizeForCapacity)
      { t with sizeBytes := t.sizeBytes + v.getSizeForCapacity } := by
    rw [Rests] at h ⊢
    dsimp only
    omega
  split
  · exact rests_push hsized _ _
  · next other d hfind =>
    have hreplace := dirinfoBytes_replace hfind d.incrRefcnt
    have hsize : d.incrRefcnt.getSizeForCapacity = d.getSizeForCapacity := rfl
    rw [Rests] at hsized ⊢
    dsimp only at hsized ⊢
    omega

theorem rests_addSyncedVictims (h : Rests rest t)
    (hadd : victims.foldlM (addSyncedVictim view) t = some t') :
    Rests (rest + victimsBytes victims) t' := by
  induction victims generalizing t rest with
  | nil =>
    cases hadd
    exact h
  | cons v others ih =>
    rw [foldlM_cons, Option.bind_eq_bind] at hadd
    obtain ⟨t₁, h₁, hadd⟩ := bind_eq_some_iff.1 hadd
    have hrests := ih (rests_addSyncedVictim h h₁) hadd
    rw [victimsBytes, map_cons, sum_cons, ← Nat.add_assoc]
    exact hrests

theorem rests_removeSyncedVictim (h : Rests (rest + v.getSizeForCapacity) t) :
    RemoveFits t v ∧ ∀ t', removeSyncedVictim t v = some t' → Rests rest t' := by
  have hsized : Rests rest { t with sizeBytes := t.sizeBytes - v.getSizeForCapacity } := by
    rw [Rests] at h ⊢
    dsimp only
    omega
  obtain ⟨hfits, hrests⟩ := rests_tryToReleaseVictimDirinfo hsized v.key
  refine ⟨⟨?_, hfits⟩, fun t' hremove => ?_⟩
  · rw [Rests] at h
    omega
  · simp only [removeSyncedVictim, require_bind_iff] at hremove
    obtain ⟨-, hremove⟩ := hremove
    cases hremove
    exact hrests

theorem rests_removeSyncedVictims (h : Rests (rest + victimsBytes victims) t) :
    EachStep removeSyncedVictim RemoveFits t victims ∧
      ∀ t', victims.foldlM removeSyncedVictim t = some t' → Rests rest t' := by
  induction victims generalizing t with
  | nil =>
    refine ⟨trivial, fun t' hremove => ?_⟩
    cases hremove
    exact h
  | cons v others ih =>
    have hfirst : Rests (rest + victimsBytes others + v.getSizeForCapacity) t := by
      rw [victimsBytes, map_cons, sum_cons] at h
      rw [Rests] at h ⊢
      rw [victimsBytes]
      omega
    obtain ⟨hfits, hstep⟩ := rests_removeSyncedVictim hfirst
    refine ⟨⟨hfits, fun t₁ h₁ => (ih (hstep t₁ h₁)).1⟩, fun t' hremove => ?_⟩
    rw [foldlM_cons, Option.bind_eq_bind] at hremove
    obtain ⟨t₁, h₁, hremove⟩ := bind_eq_some_iff.1 hremove
    exact (ih (hstep t₁ h₁)).2 t' hremove

theorem rests_releaseAll (h : Rests rest t) (keys : List Key) :
    EachStep (fun t key => some (t.tryToReleaseVictimDirinfo key)) ReleaseFits t keys ∧
      Rests rest (keys.foldl tryToReleaseVictimDirinfo t) := by
  induction keys generalizing t with
  | nil => exact ⟨trivial, h⟩
  | cons key others ih =>
    obtain ⟨hfits, hrests⟩ := rests_tryToReleaseVictimDirinfo h key
    obtain ⟨hfits', hrests'⟩ := ih hrests
    refine ⟨⟨hfits, fun t₁ h₁ => ?_⟩, hrests'⟩
    cases h₁
    exact hfits'

theorem adjustSize_eq {sizeBytes start finish : Nat} (hfits : AdjustFits sizeBytes start finish) :
    adjustSize sizeBytes start finish + start = sizeBytes + finish := by
  rw [AdjustFits] at hfits
  rw [adjustSize]
  split
  · omega
  · split <;> omega

theorem rests_replaceVictimDirinfoSet (h : Rests rest t) {isLocalBeaconed : Bool}
    (pair : Key × DirinfoSet) :
    ReplaceFits isLocalBeaconed t pair ∧
      ∀ t', replaceVictimDirinfoSet isLocalBeaconed t pair = some t' → Rests rest t' := by
  have hinsert : ∀ t₁, t.insertMissingDirinfo pair isLocalBeaconed = some t₁ → Rests rest t₁ := by
    intro t₁ h₁
    rw [insertMissingDirinfo] at h₁
    split at h₁
    · obtain ⟨d, -, h₁⟩ := bind_eq_some_iff.1 h₁
      cases h₁
      exact rests_push h pair.1 d
    · cases h₁
      exact h
  have hfits : ReplaceFits isLocalBeaconed t pair := by
    intro t₁ other d d' h₁ hfind _ _
    have hle := (hinsert t₁ h₁).dirinfo_le hfind
    omega
  refine ⟨hfits, fun t' hreplace => ?_⟩
  simp only [replaceVictimDirinfoSet, require_bind_iff] at hreplace
  obtain ⟨-, hreplace⟩ := hreplace
  obtain ⟨t₁, h₁, hset⟩ := bind_eq_some_iff.1 hreplace
  have hrests := hinsert t₁ h₁
  split at hset
  · cases hset
    exact hrests
  · next other d hfind =>
    obtain ⟨d', hd', hset⟩ := bind_eq_some_iff.1 hset
    cases hset
    have hadjust := adjustSize_eq (hfits t₁ other d d' h₁ hfind hd')
    have hbytes := dirinfoBytes_replace hfind d'
    rw [Rests] at hrests ⊢
    dsimp only
    omega

theorem rests_replaceVictimDirinfoSets (h : Rests rest t) (isLocalBeaconed : Bool)
    (sets : List (Key × DirinfoSet)) :
    EachStep (replaceVictimDirinfoSet isLocalBeaconed) (ReplaceFits isLocalBeaconed) t sets ∧
      ∀ t', t.replaceVictimDirinfoSets sets isLocalBeaconed = some t' → Rests rest t' := by
  induction sets generalizing t with
  | nil =>
    refine ⟨trivial, fun t' hreplace => ?_⟩
    cases hreplace
    exact h
  | cons pair others ih =>
    obtain ⟨hfits, hstep⟩ := rests_replaceVictimDirinfoSet h pair
    refine ⟨⟨hfits, fun t₁ h₁ => (ih (hstep t₁ h₁)).1⟩, fun t' hreplace => ?_⟩
    rw [replaceVictimDirinfoSets, foldlM_cons, Option.bind_eq_bind] at hreplace
    obtain ⟨t₁, h₁, hreplace⟩ := bind_eq_some_iff.1 hreplace
    exact (ih (hstep t₁ h₁)).2 t' hreplace

theorem rests_replaceLocalBeaconedDirinfoSets (h : Rests rest t) :
    LocalBeaconedFits t victims view ∧
      ∀ t', t.replaceLocalBeaconedDirinfoSets victims view = some t' → Rests rest t' := by
  refine ⟨fun sets _ => (rests_replaceVictimDirinfoSets h _ sets).1, fun t' hreplace => ?_⟩
  simp only [replaceLocalBeaconedDirinfoSets, bind_eq_some_iff] at hreplace
  obtain ⟨sets, -, -, -, hreplace⟩ := hreplace
  exact (rests_replaceVictimDirinfoSets h _ sets).2 t' hreplace

end Dirinfos

/-! ## One edge of many -/

section Edges

variable {edgecnt edgeIdx : Nat}

/-- The summand of one edge, apart from the others. -/
theorem sum_range_split (hedge : edgeIdx < edgecnt) (f : Nat → Nat) :
    ∑ e ∈ Finset.range edgecnt, f e =
      f edgeIdx + ∑ e ∈ (Finset.range edgecnt).erase edgeIdx, f e :=
  (Finset.add_sum_erase _ f (Finset.mem_range.2 hedge)).symm

/-- The bytes of the metadata of one edge, apart from everything else. -/
theorem peredgeBytes_metadata (hedge : edgeIdx < edgecnt) (t : VictimTracker) :
    ∃ others, ∀ t' : VictimTracker, t'.peredgeVictimsyncMonitor = t.peredgeVictimsyncMonitor →
      (∀ e, e ≠ edgeIdx → t'.peredgeVictimMetadata e = t.peredgeVictimMetadata e) →
      peredgeBytes edgecnt t' = others + metadataBytes (t'.peredgeVictimMetadata edgeIdx) := by
  refine ⟨∑ e ∈ Finset.range edgecnt, (t.peredgeVictimsyncMonitor e).getSizeForCapacity +
    ∑ e ∈ (Finset.range edgecnt).erase edgeIdx, metadataBytes (t.peredgeVictimMetadata e),
    fun t' hmonitor hother => ?_⟩
  have hsum : ∑ e ∈ (Finset.range edgecnt).erase edgeIdx,
      metadataBytes (t'.peredgeVictimMetadata e) =
      ∑ e ∈ (Finset.range edgecnt).erase edgeIdx, metadataBytes (t.peredgeVictimMetadata e) :=
    Finset.sum_congr rfl fun e he => by rw [hother e (Finset.ne_of_mem_erase he)]
  rw [peredgeBytes, hmonitor,
    sum_range_split hedge fun e => metadataBytes (t'.peredgeVictimMetadata e),
    hsum]
  omega

/-- The bytes of the monitor for one edge, apart from everything else. -/
theorem peredgeBytes_monitor (hedge : edgeIdx < edgecnt) (t : VictimTracker) :
    ∃ others, ∀ t' : VictimTracker, t'.peredgeVictimMetadata = t.peredgeVictimMetadata →
      (∀ e, e ≠ edgeIdx → t'.peredgeVictimsyncMonitor e = t.peredgeVictimsyncMonitor e) →
      peredgeBytes edgecnt t' =
        others + (t'.peredgeVictimsyncMonitor edgeIdx).getSizeForCapacity := by
  refine ⟨∑ e ∈ (Finset.range edgecnt).erase edgeIdx,
      (t.peredgeVictimsyncMonitor e).getSizeForCapacity +
    ∑ e ∈ Finset.range edgecnt, metadataBytes (t.peredgeVictimMetadata e),
    fun t' hmetadata hother => ?_⟩
  have hsum : ∑ e ∈ (Finset.range edgecnt).erase edgeIdx,
      (t'.peredgeVictimsyncMonitor e).getSizeForCapacity =
      ∑ e ∈ (Finset.range edgecnt).erase edgeIdx,
        (t.peredgeVictimsyncMonitor e).getSizeForCapacity :=
    Finset.sum_congr rfl fun e he => by rw [hother e (Finset.ne_of_mem_erase he)]
  rw [peredgeBytes, hmetadata,
    sum_range_split hedge fun e => (t'.peredgeVictimsyncMonitor e).getSizeForCapacity, hsum]
  omega

end Edges

/-! ## The operations -/

/-- The byte count is that of everything that the tracker holds. -/
def Sized (edgecnt : Nat) (t : VictimTracker) : Prop := Rests (peredgeBytes edgecnt t) t

section Operations

variable {edgecnt edgeIdx cacheMarginBytes : Nat} {t t' : VictimTracker} {view : CooperationView}
  {victims : List VictimCacheinfo}

theorem peredgeBytes_congr (hsame : SameTracking t t') :
    peredgeBytes edgecnt t' = peredgeBytes edgecnt t := by
  rw [peredgeBytes, peredgeBytes, hsame.monitor, hsame.metadata]

section Sized

variable (h : Sized edgecnt t)
include h

theorem sized_updateLocalCacheMarginBytes (hedge : t.edgeIdx < edgecnt)
    (bytes : Nat) : Sized edgecnt (t.updateLocalCacheMarginBytes bytes) := by
  obtain ⟨others, hothers⟩ := peredgeBytes_metadata hedge t
  have hsame := sameTracking_updateLocalCacheMarginBytes t bytes
  have hbefore := hothers t rfl fun e _ => rfl
  have hafter := hothers (t.updateLocalCacheMarginBytes bytes) hsame.monitor fun e he => by
    rw [hsame.metadata, metadata_withMetadata, if_neg he]
  rw [hsame.metadata, metadata_withMetadata, if_pos rfl, victimsOf] at hafter
  rw [Sized, Rests] at h ⊢
  rw [hafter]
  rw [hbefore] at h
  rw [updateLocalCacheMarginBytes]
  split
  · next hnone =>
    rw [hnone] at h
    rw [hnone]
    simp only [metadataBytes, victimsBytes, Option.elim_none, Option.elim_some, map_nil,
      sum_nil] at h ⊢
    omega
  · next metadata hsome =>
    rw [hsome] at h
    rw [hsome]
    exact h

/-- The victims of an edge are replaced: the latest are counted, then the old are discounted. -/
theorem sized_replaceVictimMetadataForEdgeIdx (hedge : edgeIdx < edgecnt) (cacheMarginBytes : Nat)
    (victims : List VictimCacheinfo) (view : CooperationView) :
    MetadataFits t edgeIdx cacheMarginBytes victims view ∧
      ∀ t', t.replaceVictimMetadataForEdgeIdx edgeIdx cacheMarginBytes victims view = some t' →
        Sized edgecnt t' := by
  obtain ⟨others, hothers⟩ := peredgeBytes_metadata hedge t
  have hbefore := hothers t rfl fun e _ => rfl
  -- after the first assignment the count is short of the new victims and still has the old ones
  have hstart : Rests (others + 8 + victimsBytes (t.victimsOf edgeIdx)) { t with
      sizeBytes := if (t.peredgeVictimMetadata edgeIdx).isSome then t.sizeBytes else t.sizeBytes + 8
      peredgeVictimMetadata :=
        update t.peredgeVictimMetadata edgeIdx (some ⟨cacheMarginBytes, victims⟩) } := by
    rw [Sized, Rests, hbefore] at h
    rw [Rests, victimsOf]
    cases hmetadata : t.peredgeVictimMetadata edgeIdx with
    | none =>
      simp only [hmetadata, metadataBytes, Option.elim_none, victimsBytes, map_nil,
        sum_nil, Option.isSome_none, Bool.false_eq_true, if_false] at h ⊢
      omega
    | some metadata =>
      simp only [hmetadata, metadataBytes, Option.elim_some, Option.isSome_some, if_true] at h ⊢
      omega
  have hadded : ∀ t₂, victims.foldlM (addSyncedVictim view) { t with
      sizeBytes := if (t.peredgeVictimMetadata edgeIdx).isSome then t.sizeBytes else t.sizeBytes + 8
      peredgeVictimMetadata :=
        update t.peredgeVictimMetadata edgeIdx (some ⟨cacheMarginBytes, victims⟩) } =
      some t₂ →
        Rests (others + 8 + victimsBytes victims + victimsBytes (t.victimsOf edgeIdx)) t₂ := by
    intro t₂ h₂
    have hrests := rests_addSyncedVictims hstart h₂
    rw [Nat.add_right_comm] at hrests
    exact hrests
  refine ⟨fun t₂ h₂ => (rests_removeSyncedVictims (hadded t₂ h₂)).1, fun t' hreplace => ?_⟩
  obtain ⟨-, hsame⟩ := replaceVictimMetadataForEdgeIdx_cases hreplace
  simp only [replaceVictimMetadataForEdgeIdx, require_bind_iff] at hreplace
  obtain ⟨-, hreplace⟩ := hreplace
  obtain ⟨t₂, h₂, hremove⟩ := bind_eq_some_iff.1 hreplace
  have hrests := (rests_removeSyncedVictims (hadded t₂ h₂)).2 t' hremove
  have hafter := hothers t' hsame.monitor fun e he => by
    rw [hsame.metadata, metadata_withMetadata, if_neg he]
  rw [hsame.metadata, metadata_withMetadata, if_pos rfl] at hafter
  rw [Sized, hafter, metadataBytes, Option.elim_some, ← Nat.add_assoc]
  exact hrests

theorem sized_replaceVictimDirinfoSets (isLocalBeaconed : Bool) (sets : List (Key × DirinfoSet)) :
    EachStep (replaceVictimDirinfoSet isLocalBeaconed) (ReplaceFits isLocalBeaconed) t sets ∧
      ∀ t', t.replaceVictimDirinfoSets sets isLocalBeaconed = some t' → Sized edgecnt t' := by
  obtain ⟨hfits, hrests⟩ := rests_replaceVictimDirinfoSets h isLocalBeaconed sets
  refine ⟨hfits, fun t' hreplace => ?_⟩
  rw [Sized, peredgeBytes_congr (sameTracking_replaceVictimDirinfoSets hreplace)]
  exact hrests t' hreplace

theorem sized_replaceLocalBeaconedDirinfoSets :
    LocalBeaconedFits t victims view ∧
      ∀ t', t.replaceLocalBeaconedDirinfoSets victims view = some t' → Sized edgecnt t' := by
  refine ⟨(rests_replaceLocalBeaconedDirinfoSets h).1, fun t' hreplace => ?_⟩
  rw [Sized, peredgeBytes_congr (sameTracking_replaceLocalBeaconedDirinfoSets hreplace)]
  exact (rests_replaceLocalBeaconedDirinfoSets h).2 t' hreplace

theorem sized_updateLocalSyncedVictims (hedge : t.edgeIdx < edgecnt) :
    NoUnderflow t (.updateLocalSyncedVictims cacheMarginBytes victims view) ∧
      ∀ t', t.updateLocalSyncedVictims cacheMarginBytes victims view = some t' →
        Sized edgecnt t' := by
  have hmetadata := sized_replaceVictimMetadataForEdgeIdx h hedge cacheMarginBytes victims view
  refine ⟨⟨hmetadata.1, fun t₁ h₁ => ?_⟩, fun t' hupdate => ?_⟩
  · exact (sized_replaceLocalBeaconedDirinfoSets (hmetadata.2 t₁ h₁)).1
  · simp only [updateLocalSyncedVictims, bind_eq_some_iff] at hupdate
    obtain ⟨t₁, h₁, hupdate⟩ := hupdate
    exact (sized_replaceLocalBeaconedDirinfoSets (hmetadata.2 t₁ h₁)).2 t' hupdate

theorem sized_setMonitor (hedge : edgeIdx < edgecnt) (m : VictimsyncMonitor) :
    MonitorFits t edgeIdx m ∧ Sized edgecnt (t.setMonitor edgeIdx m) := by
  obtain ⟨others, hothers⟩ := peredgeBytes_monitor hedge t
  have hbefore := hothers t rfl fun e _ => rfl
  have hafter := hothers (t.setMonitor edgeIdx m) rfl fun e he => by
    simp only [setMonitor, update_of_ne he]
  have hself : (t.setMonitor edgeIdx m).peredgeVictimsyncMonitor edgeIdx = m := by
    simp only [setMonitor, update_self]
  rw [hself] at hafter
  rw [Sized, Rests, hbefore] at h
  have hfits : MonitorFits t edgeIdx m := by
    intro hlt
    omega
  refine ⟨hfits, ?_⟩
  have hadjust := adjustSize_eq hfits
  rw [Sized, Rests, hafter]
  simp only [setMonitor]
  omega

theorem sized_applyNeighborVictimSyncset (hedge : edgeIdx < edgecnt) (final : VictimSyncset)
    (syncedSeqnum : Nat) (view : CooperationView) :
    ApplyFits t edgeIdx final view ∧
      ∀ t', t.applyNeighborVictimSyncset edgeIdx syncedSeqnum final view = some t' →
        Sized edgecnt t' := by
  have hvictims := sized_replaceVictimMetadataForEdgeIdx h hedge final.cacheMarginBytes
    final.localSyncedVictims view
  refine ⟨⟨hvictims.1, fun t₁ h₁ => ?_⟩, fun t' happly => ?_⟩
  · obtain ⟨hfits₁, hsized₁⟩ := sized_replaceVictimDirinfoSets (hvictims.2 t₁ h₁) false
      final.localBeaconedVictims
    exact ⟨hfits₁, fun t₂ h₂ => (sized_replaceLocalBeaconedDirinfoSets (hsized₁ t₂ h₂)).1⟩
  · simp only [applyNeighborVictimSyncset, bind_eq_some_iff] at happly
    obtain ⟨-, -, -, -, bytes, hbytes, -, -, -, -, t₁, h₁, t₂, h₂, happly⟩ := happly
    have hmetadata := (sized_replaceVictimMetadataForEdgeIdx h hedge bytes
      final.localSyncedVictims view).2 t₁ h₁
    have hdirinfos :=
      (sized_replaceVictimDirinfoSets hmetadata false final.localBeaconedVictims).2 t₂ h₂
    exact (sized_replaceLocalBeaconedDirinfoSets hdirinfos).2 t' happly

theorem sized_updateForNeighborVictimSyncset (hedge : edgeIdx < edgecnt)
    {neighbor : VictimSyncset} :
    NoUnderflow t (.updateForNeighborVictimSyncset edgeIdx neighbor view) ∧
      ∀ t', t.updateForNeighborVictimSyncset edgeIdx neighbor view = some t' →
        Sized edgecnt t' := by
  constructor
  · intro m toApply _
    cases toApply with
    | none => exact (sized_setMonitor h hedge m).1
    | some final =>
      obtain ⟨hfits, hsized⟩ := sized_applyNeighborVictimSyncset h hedge final neighbor.seqnum view
      exact ⟨hfits, fun t₁ h₁ => (sized_setMonitor (hsized t₁ h₁) hedge m).1⟩
  · intro t' hupdate
    simp only [updateForNeighborVictimSyncset] at hupdate
    obtain ⟨⟨m, out⟩, -, hupdate⟩ := bind_eq_some_iff.1 hupdate
    cases out with
    | none =>
      cases hupdate
      exact (sized_setMonitor h hedge m).2
    | some final =>
      obtain ⟨t₁, h₁, hupdate⟩ := bind_eq_some_iff.1 hupdate
      cases hupdate
      have hsized := (sized_applyNeighborVictimSyncset h hedge _ _ _).2 t₁ h₁
      exact (sized_setMonitor hsized hedge m).2

end Sized

variable {directoryInfo : DirectoryInfo}

/-- Sizes of directory infos before and after one info is inserted or erased. -/
theorem size_updateDirinfoSet {d d' : VictimDirinfo} {isAdmit isUpdate : Bool}
    (h : d.updateDirinfoSet isAdmit directoryInfo = some (d', isUpdate)) :
    d'.getSizeForCapacity + (if isUpdate = true ∧ isAdmit = false then 4 else 0) =
      d.getSizeForCapacity + (if isUpdate = true ∧ isAdmit = true then 4 else 0) := by
  have hsize : ∀ e : VictimDirinfo,
      e.getSizeForCapacity = 4 + (1 + 4 * e.dirinfoSet.dirinfoSet.length) := by
    intro e
    have hsum : (e.dirinfoSet.dirinfoSet.map DirectoryInfo.getSizeForCapacity).sum =
        4 * e.dirinfoSet.dirinfoSet.length := by
      rw [show DirectoryInfo.getSizeForCapacity = fun _ => 4 from rfl, map_const',
        sum_replicate_nat, Nat.mul_comm]
    rw [VictimDirinfo.getSizeForCapacity, DirinfoSet.getSizeForCapacity, if_pos e.complete, hsum]
  have hset : ∀ set e, d.setDirinfoSet set = some e → e.dirinfoSet = set := by
    intro set e he
    rw [VictimDirinfo.setDirinfoSet] at he
    split at he
    · cases he
      rfl
    · cases he
  rw [hsize, hsize]
  rw [VictimDirinfo.updateDirinfoSet, Option.bind_eq_bind] at h
  dsimp only at h
  split at h
  · next hadmitted =>
    -- an insertion changes the set iff the info is new
    simp only [Option.bind_eq_bind, Option.bind_eq_some_iff, DirinfoSet.tryToInsertIfComplete,
      if_pos d.complete, Option.some.injEq] at h
    obtain ⟨set, hset', updated, hupdated, heq⟩ := h
    cases heq
    rw [hset set _ hupdated, ← hset', hadmitted]
    by_cases hmem : directoryInfo ∈ d.dirinfoSet.dirinfoSet
    · simp [hmem]
    · simp [hmem]
      omega
  · next hadmitted =>
    simp only [Option.bind_eq_bind, Option.bind_eq_some_iff, DirinfoSet.tryToEraseIfComplete,
      if_pos d.complete, Option.some.injEq] at h
    obtain ⟨set, hset', updated, hupdated, heq⟩ := h
    cases heq
    have hfalse : isAdmit = false := by simpa using hadmitted
    rw [hset set _ hupdated, ← hset', hfalse]
    by_cases hmem : directoryInfo ∈ d.dirinfoSet.dirinfoSet
    · have hlength := length_erase_add_one hmem
      simp [hmem]
      omega
    · simp [hmem, erase_of_not_mem hmem]

theorem sized_updateLocalBeaconedVictimDirinfo (h : Sized edgecnt t) {key : Key} {isAdmit : Bool} :
    NoUnderflow t (.updateLocalBeaconedVictimDirinfo key isAdmit directoryInfo) ∧
      ∀ t', t.updateLocalBeaconedVictimDirinfo key isAdmit directoryInfo = some t' →
        Sized edgecnt t' := by
  have hfour : directoryInfo.getSizeForCapacity = 4 := rfl
  constructor
  · intro other d d' isUpdate hfind hupdate htrue hfalse
    have hsize := size_updateDirinfoSet hupdate
    have hle := Rests.dirinfo_le h hfind
    simp only [htrue, hfalse, true_and, if_true, Bool.false_eq_true, if_false] at hsize
    omega
  · intro t' hupdate
    have hsame := sameTracking_updateLocalBeaconedVictimDirinfo hupdate
    rw [Sized, peredgeBytes_congr hsame]
    rw [updateLocalBeaconedVictimDirinfo] at hupdate
    split at hupdate
    · cases hupdate
      exact h
    · next other d hfind =>
      obtain ⟨⟨d', isUpdate⟩, hd', hupdate⟩ := bind_eq_some_iff.1 hupdate
      cases hupdate
      have hsize := size_updateDirinfoSet hd'
      have hle := Rests.dirinfo_le h hfind
      have hbytes := dirinfoBytes_replace hfind d'
      rw [Sized, Rests] at h
      rw [Rests]
      dsimp only
      cases isUpdate <;> cases isAdmit <;> simp at hsize ⊢ <;> omega

theorem sized_getLocalVictimSyncsetForSynchronization (h : Sized edgecnt t)
    (hedge : edgeIdx < edgecnt) {bytes : Nat} :
    NoUnderflow t (.getLocalVictimSyncsetForSynchronization edgeIdx bytes) ∧
      ∀ t' final, t.getLocalVictimSyncsetForSynchronization edgeIdx bytes = some (t', final) →
        Sized edgecnt t' := by
  constructor
  · intro t' final hget
    exact (sized_setMonitor h hedge _).1
  · intro t' final hget
    obtain ⟨current, m, -, -, -, -, -, rfl⟩ := getLocalVictimSyncset_cases hget
    exact (sized_setMonitor h hedge m).2

/-- The bytes that a removal takes away are those of the victims that are gone. -/
theorem victimsBytes_removeVictims (metadata : EdgelevelVictimMetadata) (keys : List Key) :
    victimsBytes (metadata.removeVictimsForPlacement keys).1.victimCacheinfos +
        (metadata.removeVictimsForPlacement keys).2 =
      victimsBytes metadata.victimCacheinfos := by
  have hfold : ∀ acc : List VictimCacheinfo × Nat,
      victimsBytes (keys.foldl removeVictim acc).1 +
          (keys.foldl removeVictim acc).2 =
        victimsBytes acc.1 + acc.2 := by
    induction keys with
    | nil => exact fun acc => rfl
    | cons key rest ih =>
      intro acc
      rw [foldl_cons, ih, removeVictim]
      split
      · rfl
      · next v hfind =>
        have herase := sum_map_erase VictimCacheinfo.getSizeForCapacity hfind
        simp only [victimsBytes]
        omega
  exact hfold (metadata.victimCacheinfos, 0)

theorem sized_removeVictimsForGivenEdge (h : Sized edgecnt t) (hedge : edgeIdx < edgecnt)
    {keys : List Key} :
    NoUnderflow t (.removeVictimsForGivenEdge edgeIdx keys) ∧
      ∀ t', t.removeVictimsForGivenEdge edgeIdx keys = some t' → Sized edgecnt t' := by
  obtain ⟨others, hothers⟩ := peredgeBytes_metadata hedge t
  have hbefore := hothers t rfl fun e _ => rfl
  -- the count and the state after the victims are gone, before references are given back
  have hremoved : ∀ metadata, t.peredgeVictimMetadata edgeIdx = some metadata →
      (metadata.removeVictimsForPlacement keys).2 ≤ t.sizeBytes ∧
      Sized edgecnt { t with
        sizeBytes := t.sizeBytes - (metadata.removeVictimsForPlacement keys).2
        peredgeVictimMetadata := update t.peredgeVictimMetadata edgeIdx
          (some (metadata.removeVictimsForPlacement keys).1) } := by
    intro metadata hmetadata
    have hbytes := victimsBytes_removeVictims metadata keys
    have hafter := hothers { t with
      sizeBytes := t.sizeBytes - (metadata.removeVictimsForPlacement keys).2
      peredgeVictimMetadata := update t.peredgeVictimMetadata edgeIdx
        (some (metadata.removeVictimsForPlacement keys).1) } rfl
      fun e he => update_of_ne he _ _
    rw [Sized, Rests, hbefore, hmetadata, metadataBytes, Option.elim_some] at h
    simp only [update_self, metadataBytes, Option.elim_some] at hafter
    refine ⟨by omega, ?_⟩
    rw [Sized, Rests, hafter]
    dsimp only
    omega
  constructor
  · intro metadata hmetadata
    obtain ⟨hfits, hsized⟩ := hremoved metadata hmetadata
    exact ⟨hfits, (rests_releaseAll hsized keys).1⟩
  · intro t' hremove
    simp only [removeVictimsForGivenEdge, bind_eq_some_iff, pure_eq_some_iff] at hremove
    obtain ⟨metadata, hmetadata, rfl⟩ := hremove
    obtain ⟨-, hsized⟩ := hremoved metadata hmetadata
    have hrests := (rests_releaseAll hsized keys).2
    rw [Sized, peredgeBytes_congr (foldlRecOn keys tryToReleaseVictimDirinfo (.refl _)
      fun u hu key _ => hu.trans (sameTracking_tryToReleaseVictimDirinfo u key))]
    exact hrests

/-- A snapshot keeps the sizes of everything but the previous syncsets. -/
theorem sized_dumpAndLoad (h : Sized edgecnt t)
    (hprev : ∀ e < edgecnt, (t.peredgeVictimsyncMonitor e).prevVictimSyncset = none) {d : Dump}
    (hdump : t.dumpVictimTracker edgecnt = some d) (fresh : VictimTracker) :
    Sized edgecnt (fresh.loadVictimTracker d) := by
  simp only [dumpVictimTracker, bind_eq_some_iff, pure_eq_some_iff] at hdump
  obtain ⟨-, -, rfl⟩ := hdump
  set loaded := fresh.loadVictimTracker _ with hloaded
  have hmonitors : ∑ e ∈ Finset.range edgecnt,
      (loaded.peredgeVictimsyncMonitor e).getSizeForCapacity =
      ∑ e ∈ Finset.range edgecnt, (t.peredgeVictimsyncMonitor e).getSizeForCapacity := by
    refine Finset.sum_congr rfl fun e he => ?_
    rw [VictimsyncMonitor.getSizeForCapacity, VictimsyncMonitor.getSizeForCapacity,
      hprev e (Finset.mem_range.1 he)]
    have hcached : (loaded.peredgeVictimsyncMonitor e).cachedVictimSyncsets =
        (t.peredgeVictimsyncMonitor e).cachedVictimSyncsets.map VictimSyncset.received := rfl
    have hnone : (loaded.peredgeVictimsyncMonitor e).prevVictimSyncset = none := rfl
    rw [hcached, hnone, map_map]
    simp only [comp_def, VictimSyncset.getSizeForCapacity_received]
  have hmetadata : ∀ e, metadataBytes (loaded.peredgeVictimMetadata e) =
      metadataBytes (t.peredgeVictimMetadata e) := by
    intro e
    have hload : loaded.peredgeVictimMetadata e =
        (t.peredgeVictimMetadata e).map received := rfl
    rw [hload]
    cases t.peredgeVictimMetadata e with
    | none => rfl
    | some metadata =>
      simp only [metadataBytes, Option.map_some, Option.elim_some, victimsBytes,
        received, map_map, comp_def,
        VictimCacheinfo.getSizeForCapacity_received]
  have hdirinfos : dirinfoBytes loaded.perkeyVictimDirinfo =
    dirinfoBytes t.perkeyVictimDirinfo := by
    have hload : loaded.perkeyVictimDirinfo =
        t.perkeyVictimDirinfo.map fun pair => (pair.1, pair.2.received) := rfl
    simp only [hload, dirinfoBytes, map_map, comp_def,
      VictimDirinfo.getSizeForCapacity_received]
  rw [Sized, Rests, peredgeBytes] at h ⊢
  simp only [hmonitors, hmetadata, hdirinfos]
  exact h

theorem sized_step {op : Operation} {out : Option VictimSyncset} (h : Sized edgecnt t)
    (hstep : step edgecnt t op = some (t', out)) :
    NoUnderflow t op ∧ (op.DumpsAll edgecnt t → Sized edgecnt t') := by
  cases op with
  | updateLocalCacheMarginBytes bytes =>
    simp only [step, require_bind_iff] at hstep
    obtain ⟨hedge, heq⟩ := hstep
    cases heq
    exact ⟨trivial, fun _ => sized_updateLocalCacheMarginBytes h hedge bytes⟩
  | updateLocalSyncedVictims bytes victims view =>
    simp only [step, bind_eq_some_iff, require_eq_some_iff] at hstep
    obtain ⟨-, hedge, t₁, h₁, heq⟩ := hstep
    cases heq
    obtain ⟨hfits, hsized⟩ := sized_updateLocalSyncedVictims h hedge
    exact ⟨hfits, fun _ => hsized _ h₁⟩
  | updateLocalBeaconedVictimDirinfo key isAdmit directoryInfo =>
    simp only [step, bind_eq_some_iff] at hstep
    obtain ⟨t₁, h₁, heq⟩ := hstep
    cases heq
    obtain ⟨hfits, hsized⟩ := sized_updateLocalBeaconedVictimDirinfo h
    exact ⟨hfits, fun _ => hsized _ h₁⟩
  | getLocalVictimSyncsetForSynchronization dst bytes =>
    simp only [step, bind_eq_some_iff, require_eq_some_iff] at hstep
    obtain ⟨-, hedge, ⟨t₁, final⟩, h₁, heq⟩ := hstep
    cases heq
    obtain ⟨hfits, hsized⟩ := sized_getLocalVictimSyncsetForSynchronization h hedge.2
    exact ⟨hfits, fun _ => hsized _ _ h₁⟩
  | updateForNeighborVictimSyncset source neighbor view =>
    simp only [step, bind_eq_some_iff, require_eq_some_iff] at hstep
    obtain ⟨-, hedge, t₁, h₁, heq⟩ := hstep
    cases heq
    obtain ⟨hfits, hsized⟩ := sized_updateForNeighborVictimSyncset h hedge
    exact ⟨hfits, fun _ => hsized _ h₁⟩
  | removeVictimsForGivenEdge edgeIdx keys =>
    simp only [step, bind_eq_some_iff, require_eq_some_iff] at hstep
    obtain ⟨-, hedge, t₁, h₁, heq⟩ := hstep
    cases heq
    obtain ⟨hfits, hsized⟩ := sized_removeVictimsForGivenEdge h hedge
    exact ⟨hfits, fun _ => hsized _ h₁⟩
  | dumpAndLoad =>
    simp only [step, bind_eq_some_iff] at hstep
    obtain ⟨d, hd, heq⟩ := hstep
    cases heq
    exact ⟨trivial, fun hall => sized_dumpAndLoad h hall hd _⟩

theorem sized_create (edgeIdx edgecnt syncedVictimcnt monitoredVictimsetcnt : Nat) :
    Sized edgecnt (create edgeIdx edgecnt syncedVictimcnt monitoredVictimsetcnt) := by
  rw [Sized, Rests, peredgeBytes]
  simp [create, metadataBytes, dirinfoBytes]

end Operations

/-- After any sequence of operations in which the tracker is dumped only while no neighbor has a
previous syncset, the byte count is that of everything that the tracker holds, and the next
operation does not subtract more than the count. -/
theorem sizeBytes_exact {edgeIdx edgecnt syncedVictimcnt monitoredVictimsetcnt : Nat}
    {tr : List (Operation × Option VictimSyncset)} {t : VictimTracker}
    (h : Runs (step edgecnt) (fun t op => op.DumpsAll edgecnt t)
      (create edgeIdx edgecnt syncedVictimcnt monitoredVictimsetcnt) tr t) :
    t.sizeBytes = countedBytes edgecnt t ∧
    ∀ op t' out, step edgecnt t op = some (t', out) → NoUnderflow t op := by
  have hsized : Sized edgecnt t := by
    refine h.invariant (sized_create _ _ _ _) ?_
    intro t op t' out hsized hall hstep
    exact (sized_step hsized hstep).2 hall
  exact ⟨hsized, fun op t' out hstep => (sized_step hsized hstep).1⟩

instance (edgecnt : Nat) (t : VictimTracker) : (op : Operation) → Decidable (op.DumpsAll edgecnt t)
  | .dumpAndLoad => decidable_of_iff
      (∀ e < edgecnt, (t.peredgeVictimsyncMonitor e).prevVictimSyncset.isNone = true)
      (by simp only [Option.isNone_iff_eq_none]; exact Iff.rfl)
  | .updateLocalCacheMarginBytes .. => inferInstanceAs (Decidable True)
  | .updateLocalSyncedVictims .. => inferInstanceAs (Decidable True)
  | .updateLocalBeaconedVictimDirinfo .. => inferInstanceAs (Decidable True)
  | .getLocalVictimSyncsetForSynchronization .. => inferInstanceAs (Decidable True)
  | .updateForNeighborVictimSyncset .. => inferInstanceAs (Decidable True)
  | .removeVictimsForGivenEdge .. => inferInstanceAs (Decidable True)

/-- Edge `0` has a victim of two bytes, edge `1` has none. -/
def oneVictim : List Operation :=
  [.updateLocalSyncedVictims 10 [VictimCacheinfo.create ⟨[7]⟩ 2 1 0 1 0] ⟨fun _ => 0, fun _ => []⟩,
    .updateForNeighborVictimSyncset 1 (.create 0 false 5 [] []) ⟨fun _ => 0, fun _ => []⟩]

/-- The tracker is dumped before it has sent a syncset. -/
theorem sizeBytes_exact_beforeSync :
    ∃ tr t, Runs (step 2) (fun t op => op.DumpsAll 2 t) (create 0 2 3 3) tr t ∧
      t.sizeBytes = countedBytes 2 t ∧ t.sizeBytes = 94 := by
  have hexec : (exec (step 2) (fun t op => op.DumpsAll 2 t) (create 0 2 3 3)
      (oneVictim ++ [.dumpAndLoad])).any (fun t => decide (t.sizeBytes = 94)) = true := by
    decide +kernel
  obtain ⟨tr, t, hrun, -, ht⟩ := exists_runs_of_any hexec
  rw [decide_eq_true_eq] at ht
  exact ⟨tr, t, hrun, (sizeBytes_exact hrun).1, ht⟩

/-- The tracker is dumped after it has sent a syncset to edge `1`: the loaded count has the bytes of
the previous syncset, which is gone. -/
theorem sizeBytes_afterSync :
    ∃ tr t, Runs (step 2) anyAction (create 0 2 3 3) tr t ∧ t.sizeBytes ≠ countedBytes 2 t := by
  have hexec : (exec (step 2) anyAction (create 0 2 3 3)
      (oneVictim ++ [.getLocalVictimSyncsetForSynchronization 1 10, .dumpAndLoad])).any
      (fun t => decide (t.sizeBytes ≠ countedBytes 2 t)) = true := by
    decide +kernel
  obtain ⟨tr, t, hrun, -, ht⟩ := exists_runs_of_any hexec
  exact ⟨tr, t, hrun, of_decide_eq_true ht⟩

end Covered.Victim.VictimTracker
