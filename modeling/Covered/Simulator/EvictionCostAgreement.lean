import Covered.Placement.VictimSelection

/-!
# The simulator charges what the victim tracker charges

The simulator replaces the synchronized victims of an edge by the fetched ones when they are too
small; the victim tracker goes on with those fetched victims that it has not taken yet. Where both
lists are prefixes of one order of the victims of the edge, both take the same shortest prefix.

`SameInformation` is what the two know in common, `calcEvictionCost_agrees` that they then find the
same victims at the same edges and return the same cost.
-/

set_option autoImplicit false

namespace Covered.Simulator

open Common Cooperation Lib Lib.Checked Placement List
open Popularity (Edgeset)
open Victim

/-! ## What both know -/

/-- The simulator and the tracker have the same information about the edges of a placement. The
victims of an edge come in the order of their rewards, complete and with distinct keys; the
synchronized victims are the first of them, and so are the fetched victims, which cover the size of
the object. -/
structure SameInformation (view : PlacementView) (t : VictimTracker) (objectSize : Nat)
    (edgeset : Edgeset) (extraPeredgeVictimCacheinfos : List (Nat × List VictimCacheinfo))
    (extraPerkeyVictimDirinfoset : List (Key × DirinfoSet))
    (rewardOrder : Nat → List VictimCacheinfo) : Prop where
  complete : ∀ edgeIdx ∈ edgeset, ∀ v ∈ rewardOrder edgeIdx, v.isComplete = true
  distinct : ∀ edgeIdx ∈ edgeset, ((rewardOrder edgeIdx).map VictimCacheinfo.key).Nodup
  metadata : ∀ edgeIdx ∈ edgeset, ∃ metadata,
    t.peredgeVictimMetadata edgeIdx = some metadata ∧
    view.getEvictinfo edgeIdx =
      some ⟨metadata.cacheMarginBytes, metadata.victimCacheinfos⟩ ∧
    metadata.victimCacheinfos <+: rewardOrder edgeIdx
  fetched : ∀ edgeIdx ∈ edgeset, ∀ metadata, t.peredgeVictimMetadata edgeIdx = some metadata →
    syncedVictimBytes metadata.victimCacheinfos < objectSize - metadata.cacheMarginBytes →
    ∃ victims, view.fetchVictimCacheinfosForRequiredSize edgeIdx objectSize = some victims ∧
      victims <+: rewardOrder edgeIdx ∧
      objectSize ≤ (victims.map VictimCacheinfo.objectSize).sum ∧
      ((metadata.victimCacheinfos.map VictimCacheinfo.objectSize).sum <
          objectSize - metadata.cacheMarginBytes →
        valueOf edgeIdx extraPeredgeVictimCacheinfos = some victims)
  copies : ∀ edgeIdx ∈ edgeset, ∀ v ∈ rewardOrder edgeIdx, ∃ cachedEdgeNodeIdxes,
    view.getEdgeNodeIdxes v.key = some cachedEdgeNodeIdxes ∧
    ∀ i, i ∈ cachedEdgeNodeIdxes ↔ i ∈ knownCopies t extraPerkeyVictimDirinfoset v.key
  extraComplete : ∀ pair ∈ extraPerkeyVictimDirinfoset, pair.2.isComplete = true

/-! ## One edge after the other -/

section Edges

variable {view : PlacementView} {t : VictimTracker} {objectSize edgeIdx : Nat} {edgeset : Edgeset}
variable {extra : List (Nat × List VictimCacheinfo)} {extraDirinfos : List (Key × DirinfoSet)}
variable {rewardOrder : Nat → List VictimCacheinfo} {victims : List EdgeVictim}
variable {p : PlacementVictims}

theorem syncedVictimBytes_le (l : List VictimCacheinfo) (hcomplete : ∀ v ∈ l, v.isComplete = true) :
    syncedVictimBytes l ≤ (l.map VictimCacheinfo.objectSize).sum := by
  have key : ∀ bytes, l.foldl (fun bytes v => (bytes + v.getObjectSize.getD 0) %
      Cache.uint32Limit) bytes ≤ bytes + (l.map VictimCacheinfo.objectSize).sum := by
    induction l with
    | nil => exact fun bytes => Nat.le_add_right bytes 0
    | cons v rest ih =>
      intro bytes
      obtain ⟨hv, hrest⟩ := forall_mem_cons.1 hcomplete
      rw [foldl_cons, (fields_of_isComplete hv).1, Option.getD_some, map_cons,
        sum_cons, ← Nat.add_assoc]
      exact (ih hrest _).trans (Nat.add_le_add_right (Nat.mod_le _ _) _)
  have hzero := key 0
  rwa [Nat.zero_add] at hzero

/-- An edge with enough free bytes evicts nothing. -/
theorem victimsOf_of_le {evictinfo : EvictNodeinfo}
    (hinfo : view.getEvictinfo edgeIdx = some evictinfo)
    (h : objectSize ≤ evictinfo.cacheMarginBytes) : victimsOf view objectSize edgeIdx = [] := by
  have hzero : requiredBytes objectSize evictinfo = 0 := Nat.sub_eq_zero_of_le h
  rw [victimsOf, hinfo]
  simp only [hzero, shortestPrefix_zero]

section Charged

variable (h : SameInformation view t objectSize edgeset extra extraDirinfos rewardOrder)
include h

/-- The victims of an edge of the placement, and that there are enough of them. -/
theorem SameInformation.hasVictims (hedge : edgeIdx ∈ edgeset) :
    HasVictims view objectSize edgeIdx ∧
      ∀ metadata, t.peredgeVictimMetadata edgeIdx = some metadata →
        metadata.cacheMarginBytes < objectSize →
        victimsOf view objectSize edgeIdx =
            shortestPrefix VictimCacheinfo.objectSize (objectSize - metadata.cacheMarginBytes)
              (rewardOrder edgeIdx) := by
  obtain ⟨metadata, htracked, hinfo, hinitial⟩ := h.metadata edgeIdx hedge
  have hfinal : metadata.cacheMarginBytes < objectSize → ∃ final,
      finalVictimCacheinfos view objectSize (objectSize - metadata.cacheMarginBytes) edgeIdx
        metadata.victimCacheinfos = some final ∧ final <+: rewardOrder edgeIdx ∧
      objectSize - metadata.cacheMarginBytes ≤ (final.map VictimCacheinfo.objectSize).sum := by
    intro hmargin
    rw [finalVictimCacheinfos]
    by_cases hshort : syncedVictimBytes metadata.victimCacheinfos <
        objectSize - metadata.cacheMarginBytes
    · obtain ⟨fetched, hfetch, hinitial, hcover, -⟩ :=
        h.fetched edgeIdx hedge metadata htracked hshort
      rw [if_pos hshort]
      exact ⟨fetched, hfetch, hinitial, (Nat.sub_le _ _).trans hcover⟩
    · rw [if_neg hshort]
      refine ⟨_, rfl, hinitial, (Nat.not_lt.1 hshort).trans (syncedVictimBytes_le _ ?_)⟩
      exact fun v hv => h.complete edgeIdx hedge v (hinitial.subset hv)
  constructor
  · intro evictinfo hevict hmargin
    rw [hinfo, Option.some.injEq] at hevict
    subst hevict
    obtain ⟨final, hfinal, hinitial, hcover⟩ := hfinal hmargin
    refine ⟨final, hfinal, hcover, fun v hv => ?_⟩
    exact h.complete edgeIdx hedge v (hinitial.subset (shortestPrefix_isPrefix.subset hv))
  · intro metadata' htracked' hmargin
    rw [htracked, Option.some.injEq] at htracked'
    subst htracked'
    obtain ⟨final, hfinal, hinitial, hcover⟩ := hfinal hmargin
    rw [victimsOf, hinfo]
    show shortestPrefix _ _ ((finalVictimCacheinfos view objectSize
      (objectSize - metadata.cacheMarginBytes) edgeIdx metadata.victimCacheinfos).getD []) = _
    rw [hfinal]
    exact (shortestPrefix_of_isPrefix hinitial hcover).symm

/-! ## The same cost -/

/-- The tracker takes the victims that the simulator charges. -/
theorem SameInformation.taken_eq (hedge : edgeIdx ∈ edgeset) :
    syncedOf t objectSize edgeIdx ++ fetchedOf t objectSize extra edgeIdx =
      victimsOf view objectSize edgeIdx := by
  obtain ⟨metadata, htracked, hinfo, hinitial⟩ := h.metadata edgeIdx hedge
  have hcomplete : ∀ v ∈ metadata.victimCacheinfos, v.isComplete = true := fun v hv =>
    h.complete edgeIdx hedge v (hinitial.subset hv)
  rw [syncedOf, fetchedOf, htracked]
  show takenSynced metadata objectSize ++ takenFetched metadata objectSize _ = _
  by_cases hmargin : metadata.cacheMarginBytes < objectSize
  · rw [(h.hasVictims hedge).2 metadata htracked hmargin, ← forall₂_eq_eq_eq]
    refine forall₂_taken (fun _ _ => congrArg _) (fun _ _ => congrArg _) (fun _ => rfl)
      (h.distinct edgeIdx hedge) hinitial (forall₂_refl _) fun hlacks => ?_
    obtain ⟨fetched, -, hfetched, hcover, hextra⟩ := h.fetched edgeIdx hedge metadata htracked
      ((syncedVictimBytes_le _ hcomplete).trans_lt hlacks)
    rw [extraOf, hextra hlacks]
    exact ⟨hfetched, (Nat.sub_le _ _).trans hcover⟩
  · rw [takenSynced_append_takenFetched, victimsOf_of_le hinfo (Nat.not_lt.1 hmargin), missingBytes,
      Nat.sub_eq_zero_of_le (Nat.not_lt.1 hmargin), shortestPrefix_zero]

theorem SameInformation.evictedVictims_eq :
    evictedVictims t objectSize extra edgeset = charged view objectSize edgeset :=
  flatMap_congr fun _ hedge => congrArg _ (h.taken_eq hedge)

theorem SameInformation.readable (hedge : edgeIdx ∈ edgeset) :
    Readable t objectSize extra edgeIdx := by
  intro metadata htracked
  obtain ⟨metadata', htracked', -, hinitial⟩ := h.metadata edgeIdx hedge
  rw [htracked, Option.some.injEq] at htracked'
  subst htracked'
  have hcomplete : ∀ v ∈ metadata.victimCacheinfos, v.isComplete = true := fun v hv =>
    h.complete edgeIdx hedge v (hinitial.subset hv)
  refine ⟨⟨hcomplete, (h.distinct edgeIdx hedge).sublist (hinitial.sublist.map _)⟩,
    fun hlacks v hv => ?_⟩
  obtain ⟨fetched, -, hfetched, -, hextra⟩ := h.fetched edgeIdx hedge metadata htracked
    ((syncedVictimBytes_le _ hcomplete).trans_lt hlacks)
  rw [extraOf, hextra hlacks, Option.getD_some] at hv
  exact h.complete edgeIdx hedge v (hfetched.subset hv)

theorem SameInformation.victimsOf_isPrefix
    (hedge : edgeIdx ∈ edgeset) : victimsOf view objectSize edgeIdx <+: rewardOrder edgeIdx := by
  obtain ⟨metadata, htracked, hinfo, -⟩ := h.metadata edgeIdx hedge
  by_cases hmargin : metadata.cacheMarginBytes < objectSize
  · rw [(h.hasVictims hedge).2 metadata htracked hmargin]
    exact shortestPrefix_isPrefix
  · rw [victimsOf_of_le hinfo (Nat.not_lt.1 hmargin)]
    exact nil_prefix

end Charged

variable {a : EdgeVictim}

section Known

variable (h : SameInformation view t objectSize edgeset extra extraDirinfos rewardOrder)
include h

/-- A charged victim comes from the order of an edge of the placement. -/
theorem SameInformation.mem_rewardOrder (ha : a ∈ charged view objectSize edgeset) :
    a.2 ∈ edgeset ∧ a.1 ∈ rewardOrder a.2 := by
  obtain ⟨edgeIdx, hedge, ha⟩ := mem_flatMap.1 ha
  obtain ⟨v, hv, rfl⟩ := mem_map.1 ha
  exact ⟨hedge, (h.victimsOf_isPrefix hedge).subset hv⟩

/-- No edge evicts a key twice. -/
theorem SameInformation.nodup_charged (hnodup : edgeset.Nodup) :
    ((charged view objectSize edgeset).map fun a => (keyOf a, a.2)).Nodup :=
  nodup_pairs hnodup fun edgeIdx hedge =>
    (h.distinct edgeIdx hedge).sublist ((h.victimsOf_isPrefix hedge).sublist.map _)

theorem SameInformation.accountable (hnodup : edgeset.Nodup)
    (ha : a ∈ charged view objectSize edgeset) :
    Accountable view (charged view objectSize edgeset) a := by
  obtain ⟨hedge, hv⟩ := h.mem_rewardOrder ha
  obtain ⟨cached, hcached, -⟩ := h.copies a.2 hedge a.1 hv
  refine ⟨Option.isSome_of_eq_some hcached, ?_⟩
  rw [evictingEdges, toFinset_card_of_nodup
    (nodup_edges_withKey (h.nodup_charged hnodup) (keyOf a)), length_map]

/-- The tracker charges each victim as the simulator does. -/
theorem SameInformation.knownCharge_eq (w : Cache.WeightInfo)
    (ha : a ∈ charged view objectSize edgeset) :
    knownCharge t .exact w extraDirinfos (charged view objectSize edgeset) a =
      uniformCharge w view (charged view objectSize edgeset) a := by
  obtain ⟨hedge, hv⟩ := h.mem_rewardOrder ha
  obtain ⟨cached, hcached, hcopies⟩ := h.copies a.2 hedge a.1 hv
  rw [knownCharge, uniformCharge, evictsLastCopies, cachingEdges, hcached, Option.getD_some,
    isLastCopies]
  congr 1
  rw [Bool.eq_iff_iff, all_eq_true, all_eq_true]
  exact forall_congr' fun i => imp_congr_left (hcopies i).symm

end Known

/-- The simulator and the tracker find the same victims at the same edges, and return the same
cost. -/
theorem calcEvictionCost_agrees (curKey : Key)
    (h : SameInformation view t objectSize edgeset extra extraDirinfos rewardOrder)
    (hnodup : edgeset.Nodup) (hne : edgeset ≠ []) :
    ∃ found p cost,
      edgeset.foldlM (findVictims view objectSize) {} = some found ∧
      coveredCalcEvictionCost view curKey objectSize edgeset = some cost ∧
      t.calcEvictionCost .exact
        (view.getWeightTuner (view.getBeaconEdgeidx curKey)).weightInfo.toWeightInfo objectSize
        edgeset extra extraDirinfos = some (cost, p) ∧
      ∀ key, found.edgeset.lookup key = valueOf key p.pervictimEdgeset ∧
        (found.cacheinfos.lookup key).map (List.map Prod.fst) =
          valueOf key p.pervictimCacheinfos := by
  obtain ⟨p, hp, hfound, hfetch⟩ :=
    exists_findVictimsForPlacement (fun edgeIdx hedge => h.readable hedge) hnodup
  rw [h.evictedVictims_eq] at hfound
  have hvictims : ∀ edgeIdx ∈ edgeset, HasVictims view objectSize edgeIdx := fun edgeIdx hedge =>
    (h.hasVictims hedge).1
  refine ⟨_, p, _, foldlM_findVictims_eq_some_iff.2 ⟨hvictims, rfl⟩,
    coveredCalcEvictionCost_eq_some_iff.2
      ⟨hne, hvictims, fun a ha => h.accountable hnodup ha, rfl⟩, ?_, fun key => ?_⟩
  · rw [calcEvictionCost_eq hp hfound hfetch (h.nodup_charged hnodup)
      (fun a ha => h.complete a.2 (h.mem_rewardOrder ha).1 a.1 (h.mem_rewardOrder ha).2)
      h.extraComplete, Rounding.exact_sum, sum_knownCharges,
      List.map_congr_left fun a ha => h.knownCharge_eq _ ha]
  · have hlookup : (groupBy keyOf (charged view objectSize edgeset)).lookup key =
        valueOf key (groupList keyOf (charged view objectSize edgeset)) :=
      lookup_groupBy.trans valueOf_groupList.symm
    rw [collect_spec.2.lookup, collect_spec.1, hfound.edgeset, hfound.cacheinfos, valueOf_map,
      valueOf_map, hlookup]
    exact ⟨rfl, rfl⟩

end Edges

/-! ## A full edge whose second victim has to be fetched -/

/-- The victims of the edge, in the order of their rewards. -/
def sampleRewardOrder : List VictimCacheinfo :=
  [VictimCacheinfo.create ⟨[1]⟩ 1 1 0 1 0, VictimCacheinfo.create ⟨[2]⟩ 1 2 1 3 0]

/-- What the tracker is told with the fetched victims: edge `0` has the only copies. -/
def sampleExtraDirinfos : List (Key × DirinfoSet) :=
  [(⟨[1]⟩, DirinfoSet.ofList [⟨0⟩]), (⟨[2]⟩, DirinfoSet.ofList [⟨0⟩])]

/-- The tracker knows the first victim of a full edge. -/
def sampleTracker : VictimTracker :=
  { VictimTracker.create 0 1 1 1 with
    peredgeVictimMetadata := fun _ => some ⟨0, sampleRewardOrder.take 1⟩ }

/-- The simulator in the same situation. -/
def sampleFetchView : PlacementView where
  getBeaconEdgeidx _ := 0
  getWeightTuner _ :=
    { ewmaRemoteBeaconProb := 0
      ewmaPropagationLatencyClientedgeUs := 0
      ewmaPropagationLatencyCrossedgeUs := 1
      ewmaPropagationLatencyEdgecloudUs := 2
      ewmaPropagationLatencyCrossedgeUsArray := fun _ => 1
      weightInfo := { localHitWeight := 2, cooperativeHitWeight := 1 }
      isP2pEnable := false }
  getEvictinfo _ := some ⟨0, sampleRewardOrder.take 1⟩
  fetchVictimCacheinfosForRequiredSize _ _ := some sampleRewardOrder
  getEdgeNodeIdxes _ := some [0]
  latencyDistribution := .v1
  debugP2pLatencyMatrix _ _ := 1

theorem sameInformation_sample : SameInformation sampleFetchView sampleTracker 2 [0]
    [(0, sampleRewardOrder)] sampleExtraDirinfos fun _ => sampleRewardOrder where
  complete _ _ := by decide +kernel
  distinct _ _ := by decide +kernel
  metadata _ _ := ⟨_, rfl, rfl, take_prefix 1 sampleRewardOrder⟩
  fetched edgeIdx hedge _ _ _ := by
    rw [mem_singleton] at hedge
    subst hedge
    exact ⟨sampleRewardOrder, rfl, prefix_refl _, by decide +kernel, fun _ => rfl⟩
  copies _ _ v hv := by
    refine ⟨[0], rfl, fun i => ?_⟩
    have hcopies : ∀ v ∈ sampleRewardOrder,
        knownCopies sampleTracker sampleExtraDirinfos v.key = [0] := by
      decide +kernel
    rw [hcopies v hv]
  extraComplete := by decide +kernel

theorem calcEvictionCost_agrees_fetched : ∃ found p cost,
    [0].foldlM (findVictims sampleFetchView 2) {} = some found ∧
    coveredCalcEvictionCost sampleFetchView ⟨[3]⟩ 2 [0] = some cost ∧
    sampleTracker.calcEvictionCost .exact
      (sampleFetchView.getWeightTuner 0).weightInfo.toWeightInfo 2 [0] [(0, sampleRewardOrder)]
      sampleExtraDirinfos = some (cost, p) ∧
    ∀ key, found.edgeset.lookup key = valueOf key p.pervictimEdgeset ∧
      (found.cacheinfos.lookup key).map (List.map Prod.fst) = valueOf key p.pervictimCacheinfos :=
  calcEvictionCost_agrees ⟨[3]⟩ sameInformation_sample (List.nodup_singleton 0)
    (List.cons_ne_nil 0 [])

end Covered.Simulator
