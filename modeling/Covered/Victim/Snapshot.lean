import Covered.Victim.TrackerOperations

/-!
# Snapshot of the victim tracker

A tracker is dumped when the warmup ends and loaded into a new tracker of the same edge. The dump
needs the metadata of every edge, so it aborts in a tracker that has not heard from an edge yet.

`dump_restores` is what the load of a dump brings back, in every state that a tracker can reach
with syncsets that come from the network. The previous syncsets of the monitors are left out on
purpose: the next syncset for every neighbor is a complete one. Of a victim the snapshot has all
that a neighbor is told about it, which leaves out the reward of the redirected requests.
-/

set_option autoImplicit false

namespace Covered.Victim

open Common Cooperation Lib Lib.Checked Lib.Execution

/-! ## What is read twice

Reading what has been read before changes nothing any more. -/

namespace VictimCacheinfo

/-- A cacheinfo without the reward of the redirected requests. -/
def withoutRedirectedReward (v : VictimCacheinfo) : VictimCacheinfo :=
  { v with redirectedCachedReward := 0 }

theorem received_of_isComplete {v : VictimCacheinfo} (h : v.isComplete = true) :
    v.received = v.withoutRedirectedReward := by
  have hbitmap := bitmap_of_isComplete h
  -- no field of a complete cacheinfo is deduplicated
  have hfields : ¬ Has v.dedupBitmap objectSizeDedupMask ∧
      ¬ Has v.dedupBitmap localCachedPopularityDedupMask ∧
      ¬ Has v.dedupBitmap redirectedCachedPopularityDedupMask ∧
      ¬ Has v.dedupBitmap localRewardDedupMask := by
    rw [hbitmap]
    decide
  obtain ⟨hsize, hlocal, hredirected, hreward⟩ := hfields
  simp only [received, getObjectSize, getLocalCachedPopularity, getRedirectedCachedPopularity,
    getLocalReward, hsize, hlocal, hredirected, hreward, not_false_eq_true, if_true,
    Option.getD_some, withoutRedirectedReward]

theorem received_received (v : VictimCacheinfo) : v.received.received = v.received := by
  have hfield : ∀ {α : Type} {c : Prop} [Decidable c] {a default : α},
      (if ¬ c then some ((if ¬ c then some a else none).getD default) else none).getD default =
        (if ¬ c then some a else none).getD default := by
    intro α c _ a default
    by_cases hc : c
    · rw [if_neg (not_not.2 hc), if_neg (not_not.2 hc)]
    · rw [if_pos hc, if_pos hc, Option.getD_some]
  simp only [received, getObjectSize, getLocalCachedPopularity, getRedirectedCachedPopularity,
    getLocalReward]
  congr 1 <;> exact hfield

end VictimCacheinfo

theorem VictimDirinfo.received_eq (d : VictimDirinfo) : d.received = d := by
  have hset : d.dirinfoSet.received = d.dirinfoSet := by
    apply DirinfoSet.received_eq_self
    intro hincomplete
    rw [d.complete] at hincomplete
    cases hincomplete
  cases d
  simp only [received] at hset ⊢
  congr

namespace VictimSyncset

theorem received_received (s : VictimSyncset) : s.received.received = s.received := by
  by_cases hpart : HasPart s.compressedBitmap .cacheMarginBytes
  · simp only [received, hpart, if_true, List.map_map, Function.comp_def,
      VictimCacheinfo.received_received, DirinfoSet.received_received]
  · simp only [received, hpart, if_false, List.map_map, Function.comp_def,
      VictimCacheinfo.received_received, DirinfoSet.received_received]

end VictimSyncset

/-! ## States that a dump sees -/

namespace VictimTracker

section Invariant

variable {edgecnt edgeIdx : Nat} {t t' : VictimTracker} {view : CooperationView}

/-- What a neighbor is reported to have said comes from the network. -/
def Operation.FromNetwork : Operation → Prop
  | .updateForNeighborVictimSyncset _ neighbor _ => neighbor.received = neighbor
  | _ => True

/-- Every victim is complete, and every buffered syncset comes from the network. -/
structure Dumpable (t : VictimTracker) : Prop where
  victims : ∀ e, ∀ v ∈ t.victimsOf e, v.isComplete = true
  cached : ∀ e, ∀ s ∈ (t.peredgeVictimsyncMonitor e).cachedVictimSyncsets, s.received = s

variable {victims : List VictimCacheinfo}

theorem isComplete_of_addSyncedVictims (h : victims.foldlM (addSyncedVictim view) t = some t') :
    ∀ v ∈ victims, v.isComplete = true := by
  induction victims generalizing t with
  | nil => simp
  | cons first rest ih =>
    rw [List.foldlM_cons, Option.bind_eq_bind] at h
    obtain ⟨u, hu, hrest⟩ := bind_eq_some_iff.1 h
    simp only [addSyncedVictim, require_bind_iff] at hu
    intro v hv
    rcases List.mem_cons.1 hv with rfl | hv
    · exact hu.1
    · exact ih hrest v hv

theorem isComplete_of_replaceVictimMetadataForEdgeIdx {cacheMarginBytes : Nat}
    (h : t.replaceVictimMetadataForEdgeIdx edgeIdx cacheMarginBytes victims view = some t') :
    ∀ v ∈ victims, v.isComplete = true := by
  simp only [replaceVictimMetadataForEdgeIdx, bind_eq_some_iff] at h
  obtain ⟨-, -, t₂, hadd, -⟩ := h
  exact isComplete_of_addSyncedVictims hadd

/-- The victims of one edge may be replaced by complete ones. -/
theorem Dumpable.setMetadata (h : Dumpable t) {cacheMarginBytes : Nat}
    (hvictims : ∀ v ∈ victims, v.isComplete = true)
    (hmetadata : t'.peredgeVictimMetadata = Function.update t.peredgeVictimMetadata edgeIdx
      (some ⟨cacheMarginBytes, victims⟩))
    (hmonitor : t'.peredgeVictimsyncMonitor = t.peredgeVictimsyncMonitor) : Dumpable t' := by
  refine ⟨fun e v hv => ?_, by rw [hmonitor]; exact h.cached⟩
  rw [victimsOf, hmetadata, Function.update_apply] at hv
  split at hv
  · exact hvictims v hv
  · exact h.victims e v hv

/-- One monitor may be replaced by one that has buffered nothing else. -/
theorem Dumpable.setMonitor (h : Dumpable t) {m : VictimsyncMonitor}
    (hm : ∀ s ∈ m.cachedVictimSyncsets, s.received = s) :
    Dumpable (t.setMonitor edgeIdx m) := by
  refine ⟨h.victims, fun e s hs => ?_⟩
  simp only [VictimTracker.setMonitor, Function.update_apply] at hs
  split at hs
  · exact hm s hs
  · exact h.cached e s hs

theorem Dumpable.congr (h : Dumpable t) (hsame : SameTracking t t') : Dumpable t' := by
  refine ⟨fun e v hv => ?_, by rw [hsame.monitor]; exact h.cached⟩
  rw [victimsOf, hsame.metadata] at hv
  exact h.victims e v hv

theorem dumpable_updateForNeighborVictimSyncset (h : Dumpable t) {neighbor : VictimSyncset}
    (hneighbor : neighbor.received = neighbor)
    (hupdate : t.updateForNeighborVictimSyncset edgeIdx neighbor view = some t') :
    Dumpable t' := by
  simp only [updateForNeighborVictimSyncset] at hupdate
  obtain ⟨⟨m, out⟩, hreceive, hupdate⟩ := bind_eq_some_iff.1 hupdate
  have hm : ∀ s ∈ m.cachedVictimSyncsets, s.received = s := by
    intro s hs
    rcases (VictimsyncMonitor.receive_frame hreceive).2 s hs with hold | rfl
    · rw [obeyEnforcement] at hold
      split at hold
      · exact h.cached edgeIdx s hold
      · exact h.cached edgeIdx s hold
    · exact hneighbor
  cases out with
  | none =>
    cases hupdate
    exact h.setMonitor hm
  | some final =>
    obtain ⟨t₁, happly, hupdate⟩ := bind_eq_some_iff.1 hupdate
    cases hupdate
    apply Dumpable.setMonitor _ hm
    obtain ⟨-, hsame⟩ := applyNeighborVictimSyncset_cases happly
    simp only [applyNeighborVictimSyncset, bind_eq_some_iff] at happly
    obtain ⟨-, -, -, -, bytes, -, -, -, -, -, t₂, hreplace, -⟩ := happly
    refine Dumpable.congr ?_ hsame
    exact h.setMetadata (isComplete_of_replaceVictimMetadataForEdgeIdx hreplace) rfl rfl

/-- A tracker loaded from a dump can be dumped again. -/
theorem dumpable_dumpAndLoad (h : Dumpable t) {d : Dump}
    (hdump : t.dumpVictimTracker edgecnt = some d) (fresh : VictimTracker) :
    Dumpable (fresh.loadVictimTracker d) := by
  constructor
  · intro e v hv
    rw [victimsOf_loadVictimTracker hdump] at hv
    obtain ⟨w, hw, rfl⟩ := List.mem_map.1 hv
    exact h.victims e w hw
  · simp only [dumpVictimTracker, require_bind_iff, pure_eq_some_iff] at hdump
    obtain ⟨-, rfl⟩ := hdump
    intro e s hs
    obtain ⟨u, -, rfl⟩ := List.mem_map.1 hs
    exact VictimSyncset.received_received u

theorem dumpable_step {op : Operation} {out : Option VictimSyncset} (h : Dumpable t)
    (hop : op.FromNetwork) (hstep : step edgecnt t op = some (t', out)) : Dumpable t' := by
  cases op with
  | updateLocalCacheMarginBytes bytes =>
    simp only [step, require_bind_iff] at hstep
    obtain ⟨-, heq⟩ := hstep
    cases heq
    refine Dumpable.congr ?_ (sameTracking_updateLocalCacheMarginBytes t bytes)
    exact h.setMetadata (h.victims t.edgeIdx) rfl rfl
  | updateLocalSyncedVictims bytes victims view =>
    simp only [step, bind_eq_some_iff, require_eq_some_iff] at hstep
    obtain ⟨-, -, t₁, h₁, heq⟩ := hstep
    cases heq
    obtain ⟨-, hsame⟩ := updateLocalSyncedVictims_cases h₁
    simp only [updateLocalSyncedVictims, bind_eq_some_iff] at h₁
    obtain ⟨t₂, hreplace, -⟩ := h₁
    refine Dumpable.congr ?_ hsame
    exact h.setMetadata (isComplete_of_replaceVictimMetadataForEdgeIdx hreplace) rfl rfl
  | updateLocalBeaconedVictimDirinfo key isAdmit directoryInfo =>
    simp only [step, bind_eq_some_iff] at hstep
    obtain ⟨t₁, h₁, heq⟩ := hstep
    cases heq
    exact h.congr (sameTracking_updateLocalBeaconedVictimDirinfo h₁)
  | getLocalVictimSyncsetForSynchronization dst bytes =>
    simp only [step, bind_eq_some_iff] at hstep
    obtain ⟨-, -, ⟨t₁, final⟩, h₁, heq⟩ := hstep
    cases heq
    obtain ⟨current, m, -, -, -, -, hreplace, rfl⟩ := getLocalVictimSyncset_cases h₁
    obtain ⟨-, rfl, -⟩ := VictimsyncMonitor.replacePrevVictimSyncset_cases hreplace
    exact h.setMonitor (h.cached dst)
  | updateForNeighborVictimSyncset source neighbor view =>
    simp only [step, bind_eq_some_iff] at hstep
    obtain ⟨-, -, t₁, h₁, heq⟩ := hstep
    cases heq
    exact dumpable_updateForNeighborVictimSyncset h hop h₁
  | removeVictimsForGivenEdge edgeIdx keys =>
    simp only [step, bind_eq_some_iff] at hstep
    obtain ⟨-, -, t₁, h₁, heq⟩ := hstep
    cases heq
    obtain ⟨metadata, remaining, hmetadata, hsub, hsame⟩ := removeVictimsForGivenEdge_cases h₁
    refine Dumpable.congr ?_ hsame
    refine h.setMetadata (fun v hv => h.victims edgeIdx v ?_) rfl rfl
    rw [victimsOf, hmetadata]
    exact hsub.subset hv
  | dumpAndLoad =>
    simp only [step, bind_eq_some_iff] at hstep
    obtain ⟨d, hd, heq⟩ := hstep
    cases heq
    exact dumpable_dumpAndLoad h hd _

end Invariant

/-! ## What a load restores -/

/-- The tracker `r` has what the snapshot of `t` is to bring back. -/
structure Restores (edgecnt : Nat) (t r : VictimTracker) : Prop where
  edgeIdx : r.edgeIdx = t.edgeIdx
  sizeBytes : r.sizeBytes = t.sizeBytes
  metadata : ∀ e < edgecnt, r.peredgeVictimMetadata e =
    (t.peredgeVictimMetadata e).map fun metadata =>
      ⟨metadata.cacheMarginBytes,
        metadata.victimCacheinfos.map VictimCacheinfo.withoutRedirectedReward⟩
  dirinfos : r.perkeyVictimDirinfo = t.perkeyVictimDirinfo
  curSeqnum : ∀ e < edgecnt,
    (r.peredgeVictimsyncMonitor e).curSeqnum = (t.peredgeVictimsyncMonitor e).curSeqnum
  isFirstCompleteReceived : ∀ e < edgecnt,
    (r.peredgeVictimsyncMonitor e).isFirstCompleteReceived =
      (t.peredgeVictimsyncMonitor e).isFirstCompleteReceived
  trackedSeqnum : ∀ e < edgecnt,
    (r.peredgeVictimsyncMonitor e).trackedSeqnum = (t.peredgeVictimsyncMonitor e).trackedSeqnum
  cachedVictimSyncsets : ∀ e < edgecnt,
    (r.peredgeVictimsyncMonitor e).cachedVictimSyncsets =
      (t.peredgeVictimsyncMonitor e).cachedVictimSyncsets
  -- the sender starts over with a complete syncset for every neighbor
  nextComplete : ∀ dst bytes r' final,
    r.getLocalVictimSyncsetForSynchronization dst bytes = some (r', final) →
      final.isComplete = true

/-- A snapshot of a tracker that has heard from every edge brings the tracker back. -/
theorem dump_restores {edgeIdx edgecnt syncedVictimcnt monitoredVictimsetcnt : Nat}
    {tr : List (Operation × Option VictimSyncset)} {t : VictimTracker}
    (h : Runs (step edgecnt) (fun _ op => op.FromNetwork)
      (create edgeIdx edgecnt syncedVictimcnt monitoredVictimsetcnt) tr t)
    (hvalid : ∀ e < edgecnt, (t.peredgeVictimMetadata e).isSome = true) :
    ∃ d, t.dumpVictimTracker edgecnt = some d ∧
      Restores edgecnt t ((create t.edgeIdx edgecnt t.peredgeSyncedVictimcnt
        t.peredgeMonitoredVictimsetcnt).loadVictimTracker d) := by
  have hdumpable : Dumpable t := by
    refine h.invariant ⟨?_, ?_⟩ dumpable_step
    · intro e v hv
      cases hv
    · intro e s hs
      cases hs
  refine ⟨_, by rw [dumpVictimTracker, Option.bind_eq_bind, require_bind_of hvalid]; rfl, ?_⟩
  constructor
  case edgeIdx | sizeBytes | curSeqnum | isFirstCompleteReceived | trackedSeqnum =>
    first | rfl | exact fun e he => rfl
  case metadata =>
    intro e he
    have hvictims := hdumpable.victims e
    rw [victimsOf] at hvictims
    simp only [loadVictimTracker]
    cases hmetadata : t.peredgeVictimMetadata e with
    | none => rfl
    | some metadata =>
      rw [hmetadata] at hvictims
      simp only [Option.map_some, EdgelevelVictimMetadata.received]
      congr 2
      apply List.map_congr_left
      exact fun v hv => VictimCacheinfo.received_of_isComplete (hvictims v hv)
  case dirinfos =>
    simp only [loadVictimTracker, VictimDirinfo.received_eq, List.map_id']
  case cachedVictimSyncsets =>
    intro e he
    have hsame := List.map_congr_left (g := id) (hdumpable.cached e)
    exact hsame.trans (List.map_id _)
  case nextComplete =>
    intro dst bytes r' final hfinal
    obtain ⟨current, m, hcomplete, -, -, -, hreplace, -⟩ := getLocalVictimSyncset_cases hfinal
    obtain ⟨-, -, hcases⟩ := VictimsyncMonitor.replacePrevVictimSyncset_cases hreplace
    rcases hcases with ⟨-, rfl⟩ | ⟨prev, hprev, -⟩
    · exact hcomplete
    · cases hprev

deriving instance DecidableEq for VictimSyncset

instance : (op : Operation) → Decidable op.FromNetwork
  | .updateForNeighborVictimSyncset _ neighbor _ =>
      inferInstanceAs (Decidable (neighbor.received = neighbor))
  | .updateLocalCacheMarginBytes .. => inferInstanceAs (Decidable True)
  | .updateLocalSyncedVictims .. => inferInstanceAs (Decidable True)
  | .updateLocalBeaconedVictimDirinfo .. => inferInstanceAs (Decidable True)
  | .getLocalVictimSyncsetForSynchronization .. => inferInstanceAs (Decidable True)
  | .removeVictimsForGivenEdge .. => inferInstanceAs (Decidable True)
  | .dumpAndLoad => inferInstanceAs (Decidable True)

/-- The free bytes of both edges are known, and edge `1` has been sent a syncset. -/
def bothHeard : List Operation :=
  [.updateLocalCacheMarginBytes 10,
    .updateForNeighborVictimSyncset 1 (.create 0 false 5 [] []) ⟨fun _ => 0, fun _ => []⟩,
    .getLocalVictimSyncsetForSynchronization 1 10]

theorem dump_restores_bothHeard :
    ∃ tr t d, Runs (step 2) (fun _ op => op.FromNetwork) (create 0 2 3 3) tr t ∧
      t.dumpVictimTracker 2 = some d ∧ Restores 2 t
        ((create t.edgeIdx 2 t.peredgeSyncedVictimcnt
          t.peredgeMonitoredVictimsetcnt).loadVictimTracker d) := by
  have hexec : (exec (step 2) (fun _ op => op.FromNetwork) (create 0 2 3 3) bothHeard).any
      (fun t => decide (∀ e : Nat, e < 2 → (t.peredgeVictimMetadata e).isSome = true)) = true := by
    decide +kernel
  obtain ⟨tr, t, hrun, -, ht⟩ := exists_runs_of_any hexec
  obtain ⟨d, hd, hrestores⟩ := dump_restores hrun (of_decide_eq_true ht)
  exact ⟨tr, t, d, hrun, hd, hrestores⟩

/-- By a slip a tracker that has not heard from edge `1` yet is not dumped: an assertion fails on
the metadata that is missing. By design the snapshot of one that has does not bring back the
previous syncset for edge `1`. -/
theorem snapshot_incomplete :
    (∃ tr t, Runs (step 2) (fun _ op => op.FromNetwork) (create 0 2 3 3) tr t ∧
      t.dumpVictimTracker 2 = none) ∧
    ∃ tr t d, Runs (step 2) (fun _ op => op.FromNetwork) (create 0 2 3 3) tr t ∧
      t.dumpVictimTracker 2 = some d ∧
      (((create 0 2 3 3).loadVictimTracker d).peredgeVictimsyncMonitor 1).prevVictimSyncset ≠
        (t.peredgeVictimsyncMonitor 1).prevVictimSyncset := by
  constructor
  · have hexec : (exec (step 2) (fun _ op => op.FromNetwork) (create 0 2 3 3)
        [.updateLocalCacheMarginBytes 10]).any
        (fun t => (t.dumpVictimTracker 2).isNone) = true := by
      decide +kernel
    obtain ⟨tr, t, hrun, -, ht⟩ := exists_runs_of_any hexec
    exact ⟨tr, t, hrun, Option.isNone_iff_eq_none.1 ht⟩
  · have hexec : (exec (step 2) (fun _ op => op.FromNetwork) (create 0 2 3 3) bothHeard).any
        (fun t => (t.dumpVictimTracker 2).isSome &&
          (t.peredgeVictimsyncMonitor 1).prevVictimSyncset.isSome) = true := by
      decide +kernel
    obtain ⟨tr, t, hrun, -, ht⟩ := exists_runs_of_any hexec
    rw [Bool.and_eq_true] at ht
    obtain ⟨d, hd⟩ := Option.isSome_iff_exists.1 ht.1
    refine ⟨tr, t, d, hrun, hd, fun hsame => ?_⟩
    -- nothing has been loaded in its place
    have hnone : (((create 0 2 3 3).loadVictimTracker d).peredgeVictimsyncMonitor
        1).prevVictimSyncset = none := rfl
    rw [← hsame, hnone] at ht
    cases ht.2

end VictimTracker

end Covered.Victim
