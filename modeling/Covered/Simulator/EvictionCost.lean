import Mathlib.Data.List.MinMax
import Covered.Edge.WeightTuner
import Covered.Victim.PlacementVictims

/-!
# Eviction cost in the single-node simulator

The simulator charges a placement with the rewards of the victims that the edges of the placement
would evict. An edge without eviction information is empty and evicts nothing. Another edge needs
the bytes of the object that do not fit into its free bytes; it evicts its victims in the order of
their rewards until it has saved as much, after fetching more of them if the synchronized ones are
too small.

There are two copies of this function: `coveredCalcEvictionCost` with the weights of the beacon, and
`coveredCalcEvictionCostP2P` with the latencies between the edges. Both find the victims in the same
way and keep them by key, with the set of the edges that evict the key; the copies differ in the
reward of one victim at one edge, which is a parameter of `calcEvictionCostWith`. (The uniform
variant does not keep the edge of a victim, which it does not read.)

`calcEvictionCostWith_eq_some_iff` says what is charged: `charged`, for each edge the shortest
prefix of its victims that saves the required bytes.

The sets and hash tables are gone through in any order; the sums are exact.
-/

set_option autoImplicit false

namespace Covered.Simulator

open List

open Cache (uint32Limit)
open Common Edge Lib Lib.Checked
open Popularity (Edgeset)
open Victim

/-- Free bytes and victims of an edge. -/
structure EvictNodeinfo where
  cacheMarginBytes : Nat
  victimCacheinfos : List VictimCacheinfo

/-- Where the latencies between edges come from: a matrix, or the weight tuners. -/
inductive LatencyDistribution where
  | v1
  | v2
deriving DecidableEq, Repr

/-- What the calculation of a placement reads of the simulator.
`fetchVictimCacheinfosForRequiredSize` asks the cache of an edge for victims of a required size;
there is no answer from an empty cache. -/
structure PlacementView where
  getBeaconEdgeidx : Key → Nat
  getWeightTuner : Nat → WeightTuner
  getEvictinfo : Nat → Option EvictNodeinfo
  fetchVictimCacheinfosForRequiredSize : Nat → Nat → Option (List VictimCacheinfo)
  getEdgeNodeIdxes : Key → Option (List Nat)
  latencyDistribution : LatencyDistribution
  debugP2pLatencyMatrix : Nat → Nat → UInt32

/-! ## Victims of a placement -/

/-- A victim with the edge that evicts it. -/
abbrev EdgeVictim := VictimCacheinfo × Nat

/-- The key of a victim. -/
abbrev keyOf (a : EdgeVictim) : Key := a.1.key

/-- For each victim key the edges that evict it, and their cacheinfos. -/
structure PervictimInfo where
  edgeset : UnorderedMap Key (Finset Nat) := ∅
  cacheinfos : UnorderedMap Key (List EdgeVictim) := ∅

/-- Add a victim of an edge. -/
def PervictimInfo.add (found : PervictimInfo) (a : EdgeVictim) : PervictimInfo where
  edgeset := found.edgeset.insert (keyOf a) (insert a.2 ((found.edgeset.lookup (keyOf a)).getD ∅))
  cacheinfos := pushGroup keyOf found.cacheinfos a

/-- The bytes of the synchronized victims, in unsigned 32 bits. -/
def syncedVictimBytes (victims : List VictimCacheinfo) : Nat :=
  victims.foldl (fun bytes v => (bytes + v.getObjectSize.getD 0) % uint32Limit) 0

/-- The loop over the final victims of an edge, until the required bytes are saved. -/
def findVictimsInEdge (requiredBytes edgeIdx : Nat) :
    PervictimInfo → Nat → List VictimCacheinfo → Option (PervictimInfo × Nat) :=
  saveBytes (fun found v => found.add (v, edgeIdx)) requiredBytes

/-- The synchronized victims of an edge, or the fetched ones where those are too small. -/
def finalVictimCacheinfos (view : PlacementView) (objectSize requiredBytes edgeIdx : Nat)
    (synced : List VictimCacheinfo) : Option (List VictimCacheinfo) :=
  if syncedVictimBytes synced < requiredBytes then
    view.fetchVictimCacheinfosForRequiredSize edgeIdx objectSize
  else some synced

/-- Find the victims of one edge of the placement. -/
def findVictims (view : PlacementView) (objectSize : Nat) (found : PervictimInfo) (edgeIdx : Nat) :
    Option PervictimInfo :=
  match view.getEvictinfo edgeIdx with
  | none => some found
  | some evictinfo =>
      let requiredBytes :=
        if objectSize > evictinfo.cacheMarginBytes then objectSize - evictinfo.cacheMarginBytes
        else 0
      if requiredBytes > 0 then do
        let victims ← finalVictimCacheinfos view objectSize requiredBytes edgeIdx
          evictinfo.victimCacheinfos
        require (victims.length > 0)
        let (found, savedBytes) ← findVictimsInEdge requiredBytes edgeIdx found 0 victims
        require (savedBytes ≥ requiredBytes)
        return found
      else some found

/-! ## Cost -/

/-- The reward of a victim at one edge, from the edges that cache the key and those that evict it.
-/
abbrev RewardOf := List Nat → Finset Nat → EdgeVictim → Option Reward

/-- The evicting edges are all that cache the key. -/
def isLastCopies (cachedEdgeNodeIdxes : List Nat) (victimEdgeset : Finset Nat) : Bool :=
  cachedEdgeNodeIdxes.all fun edgeIdx => decide (edgeIdx ∈ victimEdgeset)

/-- The cost of one victim key. -/
def calcVictimCost (view : PlacementView) (rewardOf : RewardOf) (found : PervictimInfo)
    (entry : (_ : Key) × Finset Nat) : Option DeltaReward := do
  let cachedEdgeNodeIdxes ← view.getEdgeNodeIdxes entry.1
  let cacheinfos ← found.cacheinfos.lookup entry.1
  require (cacheinfos.length = entry.2.card)
  sumM (rewardOf cachedEdgeNodeIdxes entry.2) cacheinfos

/-- What both variants of the eviction cost have in common. -/
def calcEvictionCostWith (view : PlacementView) (rewardOf : RewardOf) (objectSize : Nat)
    (placementEdgeset : Edgeset) : Option DeltaReward := do
  require (placementEdgeset.length > 0)
  let found ← placementEdgeset.foldlM (findVictims view objectSize) {}
  sumM (calcVictimCost view rewardOf found) found.edgeset.entries

/-- The reward of a victim with the given weights. -/
def uniformReward (w : Cache.WeightInfo) : RewardOf :=
  fun cachedEdgeNodeIdxes victimEdgeset a => do
    require (a.1.isComplete = true)
    let localCachedPopularity ← a.1.getLocalCachedPopularity
    let redirectedCachedPopularity ← a.1.getRedirectedCachedPopularity
    return Cache.calcLocalCachedReward .exact w localCachedPopularity redirectedCachedPopularity
      (isLastCopies cachedEdgeNodeIdxes victimEdgeset)

/-- The eviction cost with the weights of the beacon. -/
def coveredCalcEvictionCost (view : PlacementView) (curKey : Key) (objectSize : Nat)
    (placementEdgeset : Edgeset) : Option DeltaReward :=
  let beacon := view.getWeightTuner (view.getBeaconEdgeidx curKey)
  calcEvictionCostWith view (uniformReward beacon.weightInfo.toWeightInfo) objectSize
    placementEdgeset

/-- The latency from an edge to a node that caches the object. -/
def PlacementView.latencyTo (view : PlacementView) (edgeIdx cachedNode : Nat) : UInt32 :=
  match view.latencyDistribution with
  | .v1 => view.debugP2pLatencyMatrix edgeIdx cachedNode
  | .v2 => (view.getWeightTuner edgeIdx).ewmaPropagationLatencyCrossedgeUsArray cachedNode

/-- The latency for the weight of redirected hits; the matrix is read the other way round. -/
def PlacementView.latencyFrom (view : PlacementView) (closestNode edgeIdx : Nat) : UInt32 :=
  match view.latencyDistribution with
  | .v1 => view.debugP2pLatencyMatrix closestNode edgeIdx
  | .v2 => (view.getWeightTuner edgeIdx).ewmaPropagationLatencyCrossedgeUsArray closestNode

/-- The greatest unsigned 32-bit number. -/
def uint32Max : UInt32 := 4294967295

/-- One node of the search for the closest copy that is left. -/
def closerNode (view : PlacementView) (victimEdgeset : Finset Nat) (edgeIdx : Nat)
    (closest : Option Nat × UInt32) (cachedNode : Nat) : Option Nat × UInt32 :=
  if cachedNode ∉ victimEdgeset ∧ cachedNode ≠ edgeIdx then
    if view.latencyTo edgeIdx cachedNode < closest.2 then
      (some cachedNode, view.latencyTo edgeIdx cachedNode)
    else closest
  else closest

/-- The reward of a victim with latencies between edges. The redirected reward popularity is read
but not used. -/
def latencyAwareReward (view : PlacementView) (beacon : WeightTuner) : RewardOf :=
  fun cachedEdgeNodeIdxes victimEdgeset a => do
    require (a.1.isComplete = true)
    let localCachedPopularity ← a.1.getLocalCachedPopularity
    let redirectedCachedPopularity ← a.1.getRedirectedCachedPopularity
    let _redirectedCachedPopularityReward ← a.1.getRedirectedCachedPopularityReward
    let localHitWeights ← beacon.weightInfo.localHitWeights
    if isLastCopies cachedEdgeNodeIdxes victimEdgeset then
      return localHitWeights a.2 * localCachedPopularity + 1 * redirectedCachedPopularity
    else
      let closest :=
        cachedEdgeNodeIdxes.foldl (closerNode view victimEdgeset a.2) (none, uint32Max)
      let closestNode ← closest.1
      let redirectedHitWeight := WeightTuner.us
        (beacon.ewmaPropagationLatencyEdgecloudUs - view.latencyFrom closestNode a.2)
      return (redirectedHitWeight - localHitWeights a.2) * localCachedPopularity

/-- The eviction cost with latencies between edges. -/
def coveredCalcEvictionCostP2P (view : PlacementView) (curKey : Key) (objectSize : Nat)
    (placementEdgeset : Edgeset) : Option DeltaReward :=
  calcEvictionCostWith view
    (latencyAwareReward view (view.getWeightTuner (view.getBeaconEdgeidx curKey))) objectSize
    placementEdgeset

/-! ## What is charged -/

/-- The bytes that an edge has to save. -/
def requiredBytes (objectSize : Nat) (evictinfo : EvictNodeinfo) : Nat :=
  objectSize - evictinfo.cacheMarginBytes

/-- The victims that an edge evicts: the shortest prefix that saves the required bytes. -/
def victimsOf (view : PlacementView) (objectSize edgeIdx : Nat) : List VictimCacheinfo :=
  match view.getEvictinfo edgeIdx with
  | none => []
  | some evictinfo =>
      shortestPrefix VictimCacheinfo.objectSize (requiredBytes objectSize evictinfo)
        ((finalVictimCacheinfos view objectSize (requiredBytes objectSize evictinfo) edgeIdx
          evictinfo.victimCacheinfos).getD [])

/-- All victims of a placement, with the edges that evict them. -/
def charged (view : PlacementView) (objectSize : Nat) (placementEdgeset : Edgeset) :
    List EdgeVictim :=
  placementEdgeset.flatMap fun edgeIdx => (victimsOf view objectSize edgeIdx).map (·, edgeIdx)

/-- The edges that evict a key. -/
def evictingEdges (victims : List EdgeVictim) (key : Key) : Finset Nat :=
  ((withKey keyOf key victims).map Prod.snd).toFinset

/-- An edge that has to save bytes has victims for them, and those it evicts are complete. -/
def HasVictims (view : PlacementView) (objectSize edgeIdx : Nat) : Prop :=
  ∀ evictinfo, view.getEvictinfo edgeIdx = some evictinfo →
    evictinfo.cacheMarginBytes < objectSize →
    ∃ victims, finalVictimCacheinfos view objectSize (requiredBytes objectSize evictinfo) edgeIdx
        evictinfo.victimCacheinfos = some victims ∧
      requiredBytes objectSize evictinfo ≤ (victims.map VictimCacheinfo.objectSize).sum ∧
      ∀ v ∈ shortestPrefix VictimCacheinfo.objectSize (requiredBytes objectSize evictinfo) victims,
        v.isComplete = true

/-- The reward of one victim at one edge, once the victims of the placement are known. -/
def chargeOf (view : PlacementView) (rewardOf : RewardOf) (victims : List EdgeVictim)
    (a : EdgeVictim) : Option Reward := do
  let cachedEdgeNodeIdxes ← view.getEdgeNodeIdxes (keyOf a)
  require ((withKey keyOf (keyOf a) victims).length = (evictingEdges victims (keyOf a)).card)
  rewardOf cachedEdgeNodeIdxes (evictingEdges victims (keyOf a)) a

/-! ## Finding the victims -/

section Find

variable {view : PlacementView} {objectSize edgeIdx : Nat} {found found' : PervictimInfo}

/-- One edge adds the victims that it evicts. -/
theorem findVictims_eq_some_iff :
    findVictims view objectSize found edgeIdx = some found' ↔
      HasVictims view objectSize edgeIdx ∧
      ((victimsOf view objectSize edgeIdx).map (·, edgeIdx)).foldl PervictimInfo.add found =
        found' := by
  rw [findVictims, HasVictims, victimsOf]
  cases view.getEvictinfo edgeIdx with
  | none =>
    rw [Option.some.injEq]
    refine (and_iff_right ?_).symm
    intro evictinfo h
    cases h
  | some evictinfo =>
    have hrequired : (if objectSize > evictinfo.cacheMarginBytes then
        objectSize - evictinfo.cacheMarginBytes else 0) = requiredBytes objectSize evictinfo := by
      rw [requiredBytes]
      split
      · rfl
      · omega
    simp only [hrequired, Option.some.injEq, forall_eq']
    by_cases hpos : requiredBytes objectSize evictinfo > 0
    · have hmargin : evictinfo.cacheMarginBytes < objectSize := Nat.lt_of_sub_pos hpos
      rw [if_pos hpos, forall_prop_of_true hmargin]
      cases hfinal : finalVictimCacheinfos view objectSize (requiredBytes objectSize evictinfo)
          edgeIdx evictinfo.victimCacheinfos with
      | none =>
        refine iff_of_false ?_ ?_
        · intro h
          cases h
        · rintro ⟨⟨victims, h, -⟩, -⟩
          cases h
      | some victims =>
        simp only [Option.bind_eq_bind, Option.bind_some, Option.getD_some, Option.some.injEq,
          exists_eq_left', require_eq_some_iff, Option.bind_eq_some_iff, Prod.exists,
          findVictimsInEdge, saveBytes_eq_some_iff hpos, Nat.sub_zero, Nat.zero_add,
          foldl_map, Option.pure_def]
        constructor
        · rintro ⟨-, -, found'', saved, ⟨hcomplete, hfound, rfl⟩, -, hsaved, rfl⟩
          exact ⟨⟨le_sum_shortestPrefix_iff.1 hsaved, hcomplete⟩, hfound⟩
        · rintro ⟨⟨hsaved, hcomplete⟩, hfound⟩
          refine ⟨PUnit.unit, ?_, _, _, ⟨hcomplete, hfound, rfl⟩, PUnit.unit,
            le_sum_shortestPrefix_iff.2 hsaved, rfl⟩
          -- bytes are saved, so there are victims
          cases victims with
          | nil => exact absurd hsaved (Nat.not_le.2 hpos)
          | cons v rest => exact Nat.succ_pos _
    · have hzero : requiredBytes objectSize evictinfo = 0 := Nat.eq_zero_of_not_pos hpos
      rw [if_neg hpos, hzero, shortestPrefix_zero, Option.some.injEq]
      refine (and_iff_right fun hmargin => absurd hmargin ?_).symm
      rw [requiredBytes] at hzero
      omega

theorem foldlM_findVictims_eq_some_iff {placementEdgeset : Edgeset} :
    placementEdgeset.foldlM (findVictims view objectSize) found = some found' ↔
      (∀ edgeIdx ∈ placementEdgeset, HasVictims view objectSize edgeIdx) ∧
      (charged view objectSize placementEdgeset).foldl PervictimInfo.add found = found' := by
  induction placementEdgeset generalizing found with
  | nil =>
    rw [foldlM_nil, pure_eq_some_iff]
    exact (and_iff_right fun edgeIdx h => nomatch h).symm
  | cons edgeIdx rest ih =>
    rw [foldlM_cons, bind_eq_some_iff, forall_mem_cons, charged, flatMap_cons,
      foldl_append]
    constructor
    · rintro ⟨found'', hfound, hrest⟩
      obtain ⟨hvictims, rfl⟩ := findVictims_eq_some_iff.1 hfound
      obtain ⟨hvictimss, hrest⟩ := ih.1 hrest
      exact ⟨⟨hvictims, hvictimss⟩, hrest⟩
    · rintro ⟨⟨hvictims, hvictimss⟩, hrest⟩
      exact ⟨_, findVictims_eq_some_iff.2 ⟨hvictims, rfl⟩, ih.2 ⟨hvictimss, hrest⟩⟩

end Find

/-! ## Charging the victims -/

section Charge

variable {view : PlacementView} {rewardOf : RewardOf} {objectSize : Nat} {edgeset : Edgeset}
variable {victims : List EdgeVictim} {a : EdgeVictim}

/-- The edges of the victims of a group. -/
abbrev edgesOf (group : List EdgeVictim) : Finset Nat := (group.map Prod.snd).toFinset

theorem edgesOf_append_singleton (group : List EdgeVictim) (a : EdgeVictim) :
    edgesOf (group ++ [a]) = insert a.2 (edgesOf group) := by
  rw [edgesOf, map_append, toFinset_append, Finset.union_comm]
  rfl

/-- What is found: the victims by key, and the edges of each group. -/
theorem collect_spec : (victims.foldl PervictimInfo.add {}).cacheinfos = groupBy keyOf victims ∧
    MapsTo edgesOf (groupBy keyOf victims) (victims.foldl PervictimInfo.add {}).edgeset := by
  have key : ∀ (rest : List EdgeVictim) (found : PervictimInfo),
      MapsTo edgesOf found.cacheinfos found.edgeset →
      (rest.foldl PervictimInfo.add found).cacheinfos =
          rest.foldl (pushGroup keyOf) found.cacheinfos ∧
        MapsTo edgesOf (rest.foldl (pushGroup keyOf) found.cacheinfos)
          (rest.foldl PervictimInfo.add found).edgeset := by
    intro rest
    induction rest with
    | nil => exact fun found h => ⟨rfl, h⟩
    | cons a rest ih =>
      intro found h
      refine ih (found.add a) ?_
      have hedges : edgesOf ((found.cacheinfos.lookup (keyOf a)).getD [] ++ [a]) =
          insert a.2 ((found.edgeset.lookup (keyOf a)).getD ∅) := by
        rw [edgesOf_append_singleton, h.lookup]
        cases found.cacheinfos.lookup (keyOf a) with
        | none => rfl
        | some group => rfl
      have hinsert := h.insert (keyOf a) ((found.cacheinfos.lookup (keyOf a)).getD [] ++ [a])
      rw [hedges] at hinsert
      exact hinsert
  exact key victims {} rfl

/-- A group is charged with the rewards of its victims. -/
theorem calcVictimCost_of_group {key : Key} {group : List EdgeVictim}
    (hgroup : (groupBy keyOf victims).lookup key = some group) :
    calcVictimCost view rewardOf (victims.foldl PervictimInfo.add {}) ⟨key, edgesOf group⟩ =
      sumM (chargeOf view rewardOf victims) group := by
  have hwithKey := hgroup
  rw [lookup_groupBy, groupOf] at hwithKey
  split at hwithKey
  · cases hwithKey
  · next hne =>
    have hgroup_eq : withKey keyOf key victims = group := Option.some.inj hwithKey
    rw [hgroup_eq] at hne
    rw [calcVictimCost, collect_spec.1, hgroup]
    simp only [Option.bind_eq_bind, Option.bind_some]
    -- what the group asks for first, each of its victims can ask for
    have hrequire : ∀ cached : List Nat,
        ((require (group.length = (edgesOf group).card)).bind fun _ =>
          sumM (rewardOf cached (edgesOf group)) group) =
        sumM (fun a => (require (group.length = (edgesOf group).card)).bind fun _ =>
          rewardOf cached (edgesOf group) a) group :=
      fun cached => bind_sumM _ (fun _ => rewardOf cached (edgesOf group)) hne
    rw [funext hrequire, bind_sumM _ _ hne]
    apply sumM_congr
    intro a ha
    have hkey : keyOf a = key := by
      rw [← hgroup_eq] at ha
      exact of_decide_eq_true (mem_filter.1 ha).2
    rw [chargeOf, evictingEdges, hkey, hgroup_eq]
    rfl

/-- The cost is the sum over the charged victims, in any order. -/
theorem calcEvictionCostWith_eq_some_iff {cost : DeltaReward} :
    calcEvictionCostWith view rewardOf objectSize edgeset = some cost ↔
      edgeset ≠ [] ∧ (∀ edgeIdx ∈ edgeset, HasVictims view objectSize edgeIdx) ∧
      sumM (chargeOf view rewardOf (charged view objectSize edgeset))
        (charged view objectSize edgeset) = some cost := by
  have hsum : ∀ victims : List EdgeVictim,
      sumM (calcVictimCost view rewardOf (victims.foldl PervictimInfo.add {}))
          (victims.foldl PervictimInfo.add {}).edgeset.entries =
        sumM (chargeOf view rewardOf victims) victims := by
    intro victims
    have hgroups : ∀ entry ∈ (groupBy keyOf victims).entries,
        calcVictimCost view rewardOf (victims.foldl PervictimInfo.add {})
            ⟨entry.1, edgesOf entry.2⟩ =
          sumM (chargeOf view rewardOf victims) entry.2 := fun entry hentry =>
      calcVictimCost_of_group ((UnorderedMap.mem_entries_iff _ entry.1 entry.2).1 hentry)
    rw [collect_spec.2, sumM_map, sumM_congr hgroups, ← sumM_flatMap]
    exact sumM_perm perm_groupBy
  rw [calcEvictionCostWith, require_bind_iff, gt_iff_lt, length_pos_iff, bind_eq_some_iff]
  refine and_congr_right fun _ => ⟨?_, ?_⟩
  · rintro ⟨found, hfound, hcost⟩
    obtain ⟨hvictims, rfl⟩ := foldlM_findVictims_eq_some_iff.1 hfound
    exact ⟨hvictims, (hsum _).symm.trans hcost⟩
  · rintro ⟨hvictims, hcost⟩
    exact ⟨_, foldlM_findVictims_eq_some_iff.2 ⟨hvictims, rfl⟩, (hsum _).trans hcost⟩

/-- Each victim is found by an edge of the placement, and it is complete. -/
theorem isComplete_of_mem_charged
    (h : ∀ edgeIdx ∈ edgeset, HasVictims view objectSize edgeIdx)
    (ha : a ∈ charged view objectSize edgeset) : a.1.isComplete = true := by
  obtain ⟨edgeIdx, hedge, ha⟩ := mem_flatMap.1 ha
  obtain ⟨v, hv, rfl⟩ := mem_map.1 ha
  rw [victimsOf] at hv
  cases hinfo : view.getEvictinfo edgeIdx with
  | none =>
    rw [hinfo] at hv
    cases hv
  | some evictinfo =>
    rw [hinfo] at hv
    by_cases hmargin : evictinfo.cacheMarginBytes < objectSize
    · obtain ⟨victims, hfinal, -, hcomplete⟩ := h edgeIdx hedge evictinfo hinfo hmargin
      simp only [hfinal, Option.getD_some] at hv
      exact hcomplete v hv
    · have hzero : requiredBytes objectSize evictinfo = 0 := by
        rw [requiredBytes]
        omega
      simp only [hzero, shortestPrefix_zero] at hv
      cases hv

/-- Victims of distinct edges, each with distinct keys at its edge. -/
theorem nodup_pairs {edges : List Nat} {victimsAt : Nat → List VictimCacheinfo}
    (hedges : edges.Nodup)
    (hkeys : ∀ edgeIdx ∈ edges, ((victimsAt edgeIdx).map VictimCacheinfo.key).Nodup) :
    ((edges.flatMap fun edgeIdx => (victimsAt edgeIdx).map (·, edgeIdx)).map
      fun a => (keyOf a, a.2)).Nodup := by
  rw [map_flatMap]
  apply nodup_flatMap.2
  constructor
  · intro edgeIdx hedge
    rw [map_map]
    apply List.Nodup.of_map Prod.fst
    rw [map_map]
    exact hkeys edgeIdx hedge
  · refine hedges.imp fun {i j} hij pair hi hj => hij ?_
    obtain ⟨b, hb, rfl⟩ := mem_map.1 hi
    obtain ⟨b', hb', hsame⟩ := mem_map.1 hj
    obtain ⟨v, -, rfl⟩ := mem_map.1 hb
    obtain ⟨v', -, rfl⟩ := mem_map.1 hb'
    exact (congrArg Prod.snd hsame).symm

/-- Then no edge evicts a key twice. -/
theorem nodup_edges_withKey (h : (victims.map fun a => (keyOf a, a.2)).Nodup) (key : Key) :
    ((withKey keyOf key victims).map Prod.snd).Nodup := by
  apply List.Nodup.of_map fun i => (key, i)
  rw [map_map]
  have hsame : ((withKey keyOf key victims).map fun b => (keyOf b, b.2)) =
      (withKey keyOf key victims).map ((fun i => (key, i)) ∘ Prod.snd) := by
    apply map_congr_left
    intro b hb
    exact congrArg (·, b.2) (of_decide_eq_true (mem_filter.1 hb).2)
  rw [← hsame]
  exact h.sublist (filter_sublist.map _)

/-- A victim that is charged is evicted by its edge. -/
theorem mem_evictingEdges (ha : a ∈ victims) : a.2 ∈ evictingEdges victims (keyOf a) := by
  rw [evictingEdges, mem_toFinset]
  exact mem_map_of_mem (mem_filter.2 ⟨ha, decide_eq_true rfl⟩)

end Charge

/-! ## The charge of one victim -/

/-- The edges that cache the key of a victim. -/
def cachingEdges (view : PlacementView) (a : EdgeVictim) : List Nat :=
  (view.getEdgeNodeIdxes (keyOf a)).getD []

/-- The placement evicts all copies of the victim. -/
def evictsLastCopies (view : PlacementView) (victims : List EdgeVictim) (a : EdgeVictim) : Bool :=
  isLastCopies (cachingEdges view a) (evictingEdges victims (keyOf a))

/-- What both variants ask of a victim: its key is cached somewhere, and no edge evicts it twice. -/
def Accountable (view : PlacementView) (victims : List EdgeVictim) (a : EdgeVictim) : Prop :=
  (view.getEdgeNodeIdxes (keyOf a)).isSome = true ∧
    (withKey keyOf (keyOf a) victims).length = (evictingEdges victims (keyOf a)).card

/-- The reward of a victim with uniform weights. -/
def uniformCharge (w : Cache.WeightInfo) (view : PlacementView) (victims : List EdgeVictim)
    (a : EdgeVictim) : Reward :=
  Cache.calcLocalCachedReward .exact w a.1.localCachedPopularity a.1.redirectedCachedPopularity
    (evictsLastCopies view victims a)

section Uniform

variable {view : PlacementView} {curKey : Key} {objectSize : Nat} {edgeset : Edgeset}
variable {victims : List EdgeVictim} {a : EdgeVictim} {reward : Reward} {cost : DeltaReward}

theorem chargeOf_eq_some_iff {rewardOf : RewardOf} :
    chargeOf view rewardOf victims a = some reward ↔ Accountable view victims a ∧
      rewardOf (cachingEdges view a) (evictingEdges victims (keyOf a)) a = some reward := by
  rw [chargeOf, Accountable, cachingEdges]
  cases view.getEdgeNodeIdxes (keyOf a) with
  | none => exact iff_of_false (fun h => nomatch h) fun h => nomatch h.1.1
  | some cached =>
    rw [some_bind, require_bind_iff]
    exact and_congr_left fun _ => (and_iff_right rfl).symm

theorem chargeOf_uniform {w : Cache.WeightInfo} (hcomplete : a.1.isComplete = true) :
    chargeOf view (uniformReward w) victims a = some reward ↔
      Accountable view victims a ∧ uniformCharge w view victims a = reward := by
  rw [chargeOf_eq_some_iff, uniformReward, require_bind hcomplete,
    (fields_of_isComplete hcomplete).2.1, (fields_of_isComplete hcomplete).2.2.1]
  exact and_congr_right fun _ => Option.some_inj

/-- The uniform cost of a placement. -/
theorem coveredCalcEvictionCost_eq_some_iff :
    coveredCalcEvictionCost view curKey objectSize edgeset = some cost ↔
      edgeset ≠ [] ∧ (∀ edgeIdx ∈ edgeset, HasVictims view objectSize edgeIdx) ∧
      (∀ a ∈ charged view objectSize edgeset,
        Accountable view (charged view objectSize edgeset) a) ∧
      ((charged view objectSize edgeset).map
        (uniformCharge
          (view.getWeightTuner (view.getBeaconEdgeidx curKey)).weightInfo.toWeightInfo view
          (charged view objectSize edgeset))).sum = cost := by
  rw [coveredCalcEvictionCost, calcEvictionCostWith_eq_some_iff]
  refine and_congr_right fun _ => and_congr_right fun hvictims => sumM_eq_some_iff ?_
  intro a ha y
  exact chargeOf_uniform (isComplete_of_mem_charged hvictims ha)

end Uniform

end Covered.Simulator
