import Covered.Simulator.EvictionCost

/-!
# What the victim tracker finds and charges

`Found` describes what the tracker has found after some of the edges of a placement, by the list of
the victims with the edges that evict them. The tracker keeps them by key and adds up the charges
of the victims in this order (`Found.mapM_calcVictimCost`).
-/

set_option autoImplicit false

namespace Covered.Placement

open Common Cooperation Lib Lib.Checked Simulator Victim Option List PlacementVictims VictimTracker

/-- The edges that cache a key, as far as the tracker knows. -/
def knownCopies (t : VictimTracker) (extraPerkeyVictimDirinfoset : List (Key × DirinfoSet))
    (key : Key) : List Nat :=
  (((valueOf key t.perkeyVictimDirinfo).map VictimDirinfo.dirinfoSet).toList ++
    (valueOf key extraPerkeyVictimDirinfoset).toList).flatMap fun dirinfoSet =>
      dirinfoSet.dirinfoSet.map DirectoryInfo.targetEdgeIdx

/-! ## What the tracker has found -/

/-- The victims found by the tracker are the given ones. -/
structure Found (p : PlacementVictims) (victims : List EdgeVictim) : Prop where
  edgeset : p.pervictimEdgeset =
    (groupList keyOf victims).map fun group => (group.1, edgesOf group.2)
  cacheinfos : p.pervictimCacheinfos =
    (groupList keyOf victims).map fun group => (group.1, group.2.map Prod.fst)

section Finding

variable {p p' : PlacementVictims} {victims : List EdgeVictim} {edgeIdx : Nat}
variable {v : VictimCacheinfo} {l : List VictimCacheinfo}

theorem groupList_append_singleton (a : EdgeVictim) :
    groupList keyOf (victims ++ [a]) = pushGroupList keyOf (groupList keyOf victims) a := by
  rw [groupList, foldl_append]
  rfl

theorem Found.updatePervictim (h : Found p victims) (edgeIdx : Nat) (v : VictimCacheinfo) :
    Found (p.updatePervictim edgeIdx v) (victims ++ [(v, edgeIdx)]) where
  edgeset := by
    show upsert v.key (fun edges => insert edgeIdx (edges.getD ∅)) p.pervictimEdgeset = _
    rw [h.edgeset, groupList_append_singleton, pushGroupList]
    apply upsert_map
    intro group
    cases group with
    | none => rfl
    | some group => exact (edgesOf_append_singleton group (v, edgeIdx)).symm
  cacheinfos := by
    show upsert v.key (fun infos => infos.getD [] ++ [v]) p.pervictimCacheinfos = _
    rw [h.cacheinfos, groupList_append_singleton, pushGroupList]
    apply upsert_map
    intro group
    cases group with
    | none => rfl
    | some group =>
      show group.map Prod.fst ++ [v] = (group ++ [(v, edgeIdx)]).map Prod.fst
      rw [map_append]
      rfl

/-- The synchronized victim keys of an edge. -/
abbrev syncedKeys (p : PlacementVictims) (edgeIdx : Nat) : List Key :=
  (valueOf edgeIdx p.peredgeSyncedVictimset).getD []

theorem found_addSynced (edgeIdx : Nat) (l : List VictimCacheinfo) (h : Found p victims) :
    Found (l.foldl (addSynced edgeIdx) p) (victims ++ l.map (·, edgeIdx)) ∧
      (l.foldl (addSynced edgeIdx) p).victimFetchEdgeset =
        p.victimFetchEdgeset ∧
      ∀ i, syncedKeys (l.foldl (addSynced edgeIdx) p) i =
        syncedKeys p i ++ if i = edgeIdx then l.map VictimCacheinfo.key else [] := by
  induction l generalizing p victims with
  | nil =>
    refine ⟨?_, rfl, fun i => ?_⟩
    · rw [map_nil, append_nil]
      exact h
    · rw [map_nil, ite_self, append_nil]
      rfl
  | cons v rest ih =>
    have hadd : Found (p.addSynced edgeIdx v) (victims ++ [(v, edgeIdx)]) :=
      ⟨(h.updatePervictim edgeIdx v).edgeset, (h.updatePervictim edgeIdx v).cacheinfos⟩
    obtain ⟨hfound, hfetch, hkeys⟩ := ih hadd
    rw [append_assoc] at hfound
    refine ⟨hfound, hfetch, fun i => ?_⟩
    rw [foldl_cons, hkeys, syncedKeys, addSynced, valueOf_upsert]
    by_cases hi : i = edgeIdx
    · rw [if_pos hi, if_pos hi, if_pos hi, getD_some, append_assoc, hi]
      rfl
    · rw [if_neg hi, if_neg hi, if_neg hi]

theorem found_addFetched (edgeIdx : Nat) (l : List VictimCacheinfo) (h : Found p victims) :
    Found (l.foldl (addFetched edgeIdx) p) (victims ++ l.map (·, edgeIdx)) ∧
      (l.foldl (addFetched edgeIdx) p).victimFetchEdgeset =
        p.victimFetchEdgeset ∧
      ∀ i, syncedKeys (l.foldl (addFetched edgeIdx) p) i = syncedKeys p i := by
  induction l generalizing p victims with
  | nil =>
    refine ⟨?_, rfl, fun i => rfl⟩
    rw [map_nil, append_nil]
    exact h
  | cons v rest ih =>
    have hadd : Found (p.addFetched edgeIdx v) (victims ++ [(v, edgeIdx)]) :=
      ⟨(h.updatePervictim edgeIdx v).edgeset, (h.updatePervictim edgeIdx v).cacheinfos⟩
    obtain ⟨hfound, hfetch, hkeys⟩ := ih hadd
    rw [append_assoc] at hfound
    exact ⟨hfound, hfetch, hkeys⟩

/-- The loop over the fetched victims takes those that were not synchronized. -/
theorem saveExtraBytes_eq {required savedBytes : Nat} {synced : List Key}
    (hcomplete : ∀ v ∈ l, v.isComplete = true) :
    saveExtraBytes required edgeIdx synced p savedBytes l =
      saveBytes (addFetched edgeIdx) required p savedBytes
        (l.filter fun v => v.key ∉ synced) := by
  induction l generalizing p savedBytes with
  | nil => rfl
  | cons v rest ih =>
    obtain ⟨hv, hrest⟩ := forall_mem_cons.1 hcomplete
    rw [saveExtraBytes, bind_eq_bind, require_bind_of hv, filter_cons]
    by_cases hmem : v.key ∈ synced
    · rw [if_pos hmem, decide_eq_false (not_not_intro hmem), if_neg Bool.false_ne_true]
      exact ih hrest
    · rw [if_neg hmem, if_pos (decide_eq_true hmem), saveBytes]
      simp only [ih hrest, bind_eq_bind, require_bind_of hv]

end Finding

/-! ## Charges -/

section Charge

variable {t : VictimTracker} {extraDirinfos : List (Key × DirinfoSet)} {victims : List EdgeVictim}
variable {p : PlacementVictims} {r : Rounding} {w : Cache.WeightInfo}

/-- The sets that the tracker checks list the copies that it knows. -/
theorem checkDirinfoSets_eq {edges : Finset Nat} {sets : List DirinfoSet}
    (hcomplete : ∀ set ∈ sets, set.isComplete = true) :
    checkDirinfoSets edges sets = some ((sets.flatMap fun set =>
      set.dirinfoSet.map DirectoryInfo.targetEdgeIdx).all fun i => decide (i ∈ edges)) := by
  induction sets with
  | nil => rfl
  | cons set rest ih =>
    obtain ⟨hset, hrest⟩ := forall_mem_cons.1 hcomplete
    rw [checkDirinfoSets, DirinfoSet.getDirinfoSetIfComplete, if_pos hset, ih hrest,
      flatMap_cons, all_append, List.all_map]
    simp only [some_bind, Function.comp_def]
    cases set.dirinfoSet.all fun dirinfo => decide (dirinfo.targetEdgeIdx ∈ edges) with
    | true => rw [if_pos rfl, Bool.true_and]
    | false =>
      rw [if_neg Bool.false_ne_true, Bool.false_and]
      rfl

theorem getDirinfoSets_eq {dirinfoSet : Option DirinfoSet}
    (hcomplete : ∀ set, dirinfoSet = some set → set.isComplete = true) :
    getDirinfoSets dirinfoSet = some dirinfoSet.toList := by
  cases dirinfoSet with
  | none => rfl
  | some set =>
    rw [getDirinfoSets, bind_eq_bind, require_bind_of (hcomplete set rfl)]
    rfl

/-- The tracker asks whether all copies that it knows are among the evicting edges. -/
theorem isLastCopiesForVictimEdgeset_eq
    (hextra : ∀ pair ∈ extraDirinfos, pair.2.isComplete = true) (key : Key) (edges : Finset Nat) :
    t.isLastCopiesForVictimEdgeset key edges extraDirinfos =
      some ((knownCopies t extraDirinfos key).all fun i => decide (i ∈ edges)) := by
  have htracked : ∀ set, (valueOf key t.perkeyVictimDirinfo).map VictimDirinfo.dirinfoSet =
      some set → set.isComplete = true := by
    intro set hset
    obtain ⟨d, -, rfl⟩ := map_eq_some_iff.1 hset
    exact d.complete
  have hfetched : ∀ set, valueOf key extraDirinfos = some set → set.isComplete = true := by
    intro set hset
    obtain ⟨pair, hpair, rfl⟩ := map_eq_some_iff.1 hset
    exact hextra pair (KeyedList.mem_of_find hpair)
  have hsets : ∀ set ∈ ((valueOf key t.perkeyVictimDirinfo).map
      VictimDirinfo.dirinfoSet).toList ++ (valueOf key extraDirinfos).toList,
      set.isComplete = true := by
    intro set hset
    rcases mem_append.1 hset with hset | hset
    · exact htracked set (mem_toList.1 hset)
    · exact hfetched set (mem_toList.1 hset)
  rw [isLastCopiesForVictimEdgeset, getDirinfoSets_eq htracked,
    getDirinfoSets_eq hfetched]
  show checkDirinfoSets edges _ = _
  rw [checkDirinfoSets_eq hsets, knownCopies]

/-- The reward of a victim, from the copies of its key that the tracker knows. -/
def knownCharge (t : VictimTracker) (r : Rounding) (w : Cache.WeightInfo)
    (extraPerkeyVictimDirinfoset : List (Key × DirinfoSet)) (victims : List EdgeVictim)
    (a : EdgeVictim) : Reward :=
  Cache.calcLocalCachedReward r w a.1.localCachedPopularity a.1.redirectedCachedPopularity
    ((knownCopies t extraPerkeyVictimDirinfoset (keyOf a)).all fun i =>
      decide (i ∈ evictingEdges victims (keyOf a)))

/-- The charges in the order in which they are added: key by key. -/
def knownCharges (t : VictimTracker) (r : Rounding) (w : Cache.WeightInfo)
    (extraPerkeyVictimDirinfoset : List (Key × DirinfoSet)) (victims : List EdgeVictim) :
    List Reward :=
  ((groupList keyOf victims).flatMap Prod.snd).map
    (knownCharge t r w extraPerkeyVictimDirinfoset victims)

theorem calcVictimReward_eq (isLastCopies : Bool) {v : VictimCacheinfo} (hv : v.isComplete = true) :
    calcVictimReward r w isLastCopies v = some (Cache.calcLocalCachedReward r w
      v.localCachedPopularity v.redirectedCachedPopularity isLastCopies) := by
  rw [calcVictimReward, bind_eq_bind, require_bind_of hv,
    (fields_of_isComplete hv).2.1, (fields_of_isComplete hv).2.2.1]
  rfl

section Found

variable (h : Found p victims) (hextra : ∀ pair ∈ extraDirinfos, pair.2.isComplete = true)
  (hpairs : (victims.map fun a => (keyOf a, a.2)).Nodup)
  (hcomplete : ∀ a ∈ victims, a.1.isComplete = true)
include h hextra hpairs hcomplete

/-- The costs of a key are the charges of its victims, if they are complete and no edge evicts one
twice. -/
theorem Found.calcVictimCost_of_group {group : Key × List EdgeVictim}
    (hgroup : group ∈ groupList keyOf victims) :
    t.calcVictimCost r w extraDirinfos p (group.1, edgesOf group.2) =
      some (group.2.map (knownCharge t r w extraDirinfos victims)) := by
  have hvalue : valueOf group.1 (groupList keyOf victims) = some group.2 := by
    rw [valueOf, (KeyedList.find_eq_some_iff nodupKeys_groupList).2 ⟨hgroup, rfl⟩]
    rfl
  have hgroup_eq : withKey keyOf group.1 victims = group.2 := by
    rw [valueOf_groupList, groupOf] at hvalue
    split at hvalue
    · cases hvalue
    · exact some.inj hvalue
  have hcard : group.2.length = (edgesOf group.2).card := by
    rw [edgesOf, ← hgroup_eq, toFinset_card_of_nodup (nodup_edges_withKey hpairs group.1),
      length_map]
  rw [VictimTracker.calcVictimCost, isLastCopiesForVictimEdgeset_eq hextra, h.cacheinfos,
    valueOf_map, hvalue]
  simp only [bind_eq_bind, bind_some, map_some, length_map]
  rw [require_bind_of hcard, mapM_map]
  apply mapM_eq_some_map
  intro a ha
  rw [← hgroup_eq] at ha
  have hkey : keyOf a = group.1 := of_decide_eq_true (mem_filter.1 ha).2
  rw [Function.comp_apply, calcVictimReward_eq _ (hcomplete a (mem_filter.1 ha).1), knownCharge,
    evictingEdges, hkey, hgroup_eq]

/-- The costs are the charges of the victims that were found. -/
theorem Found.mapM_calcVictimCost :
    (p.pervictimEdgeset.mapM (t.calcVictimCost r w extraDirinfos p)).map flatten =
      some (knownCharges t r w extraDirinfos victims) := by
  have hcosts : ∀ group ∈ groupList keyOf victims,
      (t.calcVictimCost r w extraDirinfos p ∘ fun group => (group.1, edgesOf group.2)) group =
        some (group.2.map (knownCharge t r w extraDirinfos victims)) := fun group hgroup =>
    h.calcVictimCost_of_group hextra hpairs hcomplete hgroup
  rw [h.edgeset, mapM_map, mapM_eq_some_map hcosts, map_some, knownCharges, map_flatMap]
  rfl

end Found

/-- In exact arithmetic the order of the charges makes no difference. -/
theorem sum_knownCharges : (knownCharges t .exact w extraDirinfos victims).sum =
    (victims.map (knownCharge t .exact w extraDirinfos victims)).sum :=
  (perm_groupList.map _).sum_eq

end Charge

end Covered.Placement
