import Mathlib.Algebra.BigOperators.Ring.List
import Covered.Simulator.EvictionCost

/-!
# The latency-aware eviction cost

The latency-aware variant of the eviction cost should be a cost, and should agree with the uniform
variant where all latencies between edges are the same. It does neither in general: a victim that
other edges still cache is charged with the weight of redirected hits minus the one of local hits,
where the uniform variant takes local minus redirected, and a victim whose last copies are evicted
is charged with its redirected popularity times `1`, where the uniform variant takes the weight of
cooperative hits.

`latencyAwareCost_iff` is the exact condition for either property: the wrongly signed part must not
outweigh the rest for the cost to be nonnegative, and the two deviations have to cancel for the
variants to agree.
-/

set_option autoImplicit false

namespace Covered.Simulator

open Common Edge Option List
open Edge.WeightTuner (us us_nonneg us_sub)
open Lib Lib.Checked
open Popularity (Edgeset)
open Victim

/-! ## The nearest copy that is left -/

/-- The copies of a victim that the placement leaves at other edges. -/
def remainingCopies (view : PlacementView) (victims : List EdgeVictim) (a : EdgeVictim) :
    List Nat :=
  (cachingEdges view a).filter fun edgeIdx =>
    decide (edgeIdx ∉ evictingEdges victims (keyOf a) ∧ edgeIdx ≠ a.2)

/-- The first of the nearest copies that are left. -/
def nearestCopy (view : PlacementView) (victims : List EdgeVictim) (a : EdgeVictim) : Option Nat :=
  (remainingCopies view victims a).argmin fun edgeIdx => (view.latencyTo a.2 edgeIdx).toNat

/-- The latency from the nearest copy that is left. -/
def nearestLatency (view : PlacementView) (victims : List EdgeVictim) (a : EdgeVictim) : ℚ :=
  match nearestCopy view victims a with
  | none => 0
  | some edgeIdx => us (view.latencyFrom edgeIdx a.2)

theorem lt_uint32Max {c : UInt32} (h : c ≠ uint32Max) : c < uint32Max := by
  apply UInt32.lt_of_le_of_ne (UInt32.le_iff_toNat_le.2 ?_) h
  exact Nat.le_of_lt_succ c.toNat_lt

section Search

variable {view : PlacementView} {victims : List EdgeVictim} {a : EdgeVictim}

/-- The search of the source finds the nearest copy, if its latency is below the greatest number. -/
theorem foldl_closerNode (view : PlacementView) (cached : List Nat) (edges : Finset Nat)
    (edgeIdx : Nat) :
    cached.foldl (closerNode view edges edgeIdx) (none, uint32Max) =
      match (cached.filter fun node => decide (node ∉ edges ∧ node ≠ edgeIdx)).argmin
        fun node => (view.latencyTo edgeIdx node).toNat with
      | none => (none, uint32Max)
      | some node =>
          if view.latencyTo edgeIdx node < uint32Max then
            (some node, view.latencyTo edgeIdx node)
          else (none, uint32Max) := by
  induction cached using reverseRecOn with
  | nil => rfl
  | append_singleton cached node ih =>
    rw [foldl_append, ih, filter_append, foldl_cons, foldl_nil,
      filter_singleton]
    by_cases hnode : node ∉ edges ∧ node ≠ edgeIdx
    · rw [decide_eq_true hnode, cond_true, argmin_concat, closerNode, if_pos hnode]
      cases (cached.filter fun node => decide (node ∉ edges ∧ node ≠ edgeIdx)).argmin
          fun node => (view.latencyTo edgeIdx node).toNat with
      | none => rfl
      | some best =>
        simp only [← UInt32.lt_iff_toNat_lt]
        by_cases hbest : view.latencyTo edgeIdx best < uint32Max
        · rw [if_pos hbest]
          by_cases hcloser : view.latencyTo edgeIdx node < view.latencyTo edgeIdx best
          · rw [if_pos hcloser, if_pos hcloser]
            exact (if_pos (UInt32.lt_trans hcloser hbest)).symm
          · rw [if_neg hcloser, if_neg hcloser]
            exact (if_pos hbest).symm
        · rw [if_neg hbest]
          by_cases hcloser : view.latencyTo edgeIdx node < view.latencyTo edgeIdx best
          · rw [if_pos hcloser]
          · have hfar : ¬ view.latencyTo edgeIdx node < uint32Max := fun h =>
              hbest (UInt32.lt_of_le_of_lt (UInt32.not_lt.1 hcloser) h)
            rw [if_neg hcloser, if_neg hfar]
            exact (if_neg hbest).symm
    · rw [decide_eq_false hnode, cond_false, append_nil, closerNode, if_neg hnode]

/-- A victim whose last copies are not evicted has a nearest copy that is left. -/
theorem exists_nearestCopy (ha : a ∈ victims) (h : evictsLastCopies view victims a = false) :
    ∃ edgeIdx, nearestCopy view victims a = some edgeIdx := by
  rw [evictsLastCopies, isLastCopies, List.all_eq_false] at h
  obtain ⟨edgeIdx, hcached, hnot⟩ := h
  have hnot : edgeIdx ∉ evictingEdges victims (keyOf a) := fun hmem =>
    hnot (decide_eq_true hmem)
  have hne : edgeIdx ≠ a.2 := fun heq => hnot (heq ▸ mem_evictingEdges ha)
  have hremaining : edgeIdx ∈ remainingCopies view victims a :=
    mem_filter.2 ⟨hcached, decide_eq_true ⟨hnot, hne⟩⟩
  apply ne_none_iff_exists'.1
  intro hnone
  rw [nearestCopy, argmin_eq_none] at hnone
  rw [hnone] at hremaining
  cases hremaining

end Search

/-! ## The charge of one victim -/

section Charge

variable {view : PlacementView} {victims : List EdgeVictim} {a : EdgeVictim} {reward : Reward}

/-- The reward of a victim with the weights of the single edges. -/
def latencyAwareCharge (beacon : WeightTuner) (localHitWeights : Nat → ℚ) (view : PlacementView)
    (victims : List EdgeVictim) (a : EdgeVictim) : Reward :=
  if evictsLastCopies view victims a then
    localHitWeights a.2 * a.1.localCachedPopularity + a.1.redirectedCachedPopularity
  else
    (us beacon.ewmaPropagationLatencyEdgecloudUs - nearestLatency view victims a -
      localHitWeights a.2) * a.1.localCachedPopularity

/-- The latency-aware variant needs the weights of the single edges and, for a victim with copies
left, a copy nearer than the greatest latency. -/
theorem chargeOf_latencyAware {beacon : WeightTuner} {localHitWeights : Nat → ℚ}
    (hweights : beacon.weightInfo.localHitWeights = some localHitWeights)
    (hbound : ∀ i j, view.latencyFrom i j ≤ beacon.ewmaPropagationLatencyEdgecloudUs)
    (hcomplete : a.1.isComplete = true) (ha : a ∈ victims) :
    chargeOf view (latencyAwareReward view beacon) victims a = some reward ↔
      Accountable view victims a ∧
      (evictsLastCopies view victims a = false →
        ∀ edgeIdx, nearestCopy view victims a = some edgeIdx →
          view.latencyTo a.2 edgeIdx < uint32Max) ∧
      latencyAwareCharge beacon localHitWeights view victims a = reward := by
  obtain ⟨-, hlocal, hredirected, hreward⟩ := fields_of_isComplete hcomplete
  rw [chargeOf_eq_some_iff, latencyAwareReward, require_bind hcomplete, hlocal, hredirected,
    hreward, hweights]
  simp only [bind_eq_bind, bind_some]
  refine and_congr_right fun _ => ?_
  rw [latencyAwareCharge]
  cases hlast : evictsLastCopies view victims a with
  | true =>
    rw [evictsLastCopies] at hlast
    rw [if_pos hlast, if_pos rfl, Option.pure_def, some_inj, one_mul]
    exact (and_iff_right fun h => nomatch h).symm
  | false =>
    obtain ⟨edgeIdx, hnearest⟩ := exists_nearestCopy ha hlast
    rw [nearestLatency, hnearest]
    rw [evictsLastCopies] at hlast
    have hsearch := foldl_closerNode view (cachingEdges view a)
      (evictingEdges victims (keyOf a)) a.2
    have hargmin : ((cachingEdges view a).filter fun node =>
        decide (node ∉ evictingEdges victims (keyOf a) ∧ node ≠ a.2)).argmin
          (fun node => (view.latencyTo a.2 node).toNat) = some edgeIdx := hnearest
    rw [hargmin] at hsearch
    rw [if_neg (fun h => Bool.false_ne_true (hlast.symm.trans h)), if_neg Bool.false_ne_true,
      hsearch]
    by_cases hnear : view.latencyTo a.2 edgeIdx < uint32Max
    · simp only [if_pos hnear, bind_some, Option.pure_def, some_inj,
        us_sub (hbound edgeIdx a.2)]
      refine (and_iff_right fun _ other hother => ?_).symm
      cases hother
      exact hnear
    · simp only [if_neg hnear, bind_none]
      exact iff_of_false (fun h => nomatch h) fun h => hnear (h.1 trivial edgeIdx rfl)

end Charge

/-! ## When the variant is a cost, and when it agrees with the uniform one -/

/-- The charged victims whose last copies are evicted. -/
def lastCopyVictims (view : PlacementView) (victims : List EdgeVictim) : List EdgeVictim :=
  victims.filter fun a => evictsLastCopies view victims a

/-- The charged victims with copies left at other edges. -/
def copiedVictims (view : PlacementView) (victims : List EdgeVictim) : List EdgeVictim :=
  victims.filter fun a => ¬ evictsLastCopies view victims a

/-- The weight of local hits at an edge, as the beacon of the key has it. -/
def localHitWeightAt (view : PlacementView) (curKey : Key) (edgeIdx : Nat) : ℚ :=
  ((view.getWeightTuner (view.getBeaconEdgeidx curKey)).weightInfo.localHitWeights.getD
    fun _ => 0) edgeIdx

/-- The latency from the beacon of the key to the cloud. -/
def cloudLatency (view : PlacementView) (curKey : Key) : UInt32 :=
  (view.getWeightTuner (view.getBeaconEdgeidx curKey)).ewmaPropagationLatencyEdgecloudUs

/-- All latencies between edges are `c`, all those to the cloud are `b`, and the beacon has computed
its weights from them. -/
structure UniformLatencies (view : PlacementView) (curKey : Key) (c b : UInt32) : Prop where
  crossedge : ∀ i, (view.getWeightTuner i).ewmaPropagationLatencyCrossedgeUs = c
  crossedgeArray : ∀ i j, (view.getWeightTuner i).ewmaPropagationLatencyCrossedgeUsArray j = c
  matrix : ∀ i j, view.debugP2pLatencyMatrix i j = c
  edgecloud : ∀ i, (view.getWeightTuner i).ewmaPropagationLatencyEdgecloudUs = b
  upToDate : (view.getWeightTuner (view.getBeaconEdgeidx curKey)).UpToDate
  isP2pEnable : (view.getWeightTuner (view.getBeaconEdgeidx curKey)).isP2pEnable = true

section Costs

variable {view : PlacementView} {curKey : Key} {objectSize : Nat} {edgeset : Edgeset}
variable {cost : DeltaReward} {c b : UInt32} {victims : List EdgeVictim}

theorem UniformLatencies.latencyTo (h : UniformLatencies view curKey c b) (i j : Nat) :
    view.latencyTo i j = c := by
  rw [PlacementView.latencyTo]
  cases view.latencyDistribution with
  | v1 => exact h.matrix i j
  | v2 => exact h.crossedgeArray i j

theorem UniformLatencies.latencyFrom (h : UniformLatencies view curKey c b) (i j : Nat) :
    view.latencyFrom i j = c := by
  rw [PlacementView.latencyFrom]
  cases view.latencyDistribution with
  | v1 => exact h.matrix i j
  | v2 => exact h.crossedgeArray j i

/-- A sum over the charged victims, with and without copies left. -/
theorem sum_by_copies (view : PlacementView) (victims : List EdgeVictim) (x y : EdgeVictim → ℚ) :
    (victims.map fun a => if evictsLastCopies view victims a then x a else y a).sum =
      ((lastCopyVictims view victims).map x).sum + ((copiedVictims view victims).map y).sum := by
  have key := sum_map_ite (fun a => evictsLastCopies view victims a = true) x y victims
  simp only [Bool.decide_eq_true] at key
  exact key

/-- The latency-aware cost of a placement. -/
theorem coveredCalcEvictionCostP2P_eq_some_iff {weights : Nat → ℚ}
    (hweights : (view.getWeightTuner
      (view.getBeaconEdgeidx curKey)).weightInfo.localHitWeights = some weights)
    (hbound : ∀ i j, view.latencyFrom i j ≤ cloudLatency view curKey) :
    coveredCalcEvictionCostP2P view curKey objectSize edgeset = some cost ↔
      edgeset ≠ [] ∧ (∀ edgeIdx ∈ edgeset, HasVictims view objectSize edgeIdx) ∧
      (∀ a ∈ charged view objectSize edgeset,
        Accountable view (charged view objectSize edgeset) a ∧
        (evictsLastCopies view (charged view objectSize edgeset) a = false →
          ∀ edgeIdx, nearestCopy view (charged view objectSize edgeset) a = some edgeIdx →
            view.latencyTo a.2 edgeIdx < uint32Max)) ∧
      ((charged view objectSize edgeset).map
        (latencyAwareCharge (view.getWeightTuner (view.getBeaconEdgeidx curKey)) weights view
          (charged view objectSize edgeset))).sum = cost := by
  rw [coveredCalcEvictionCostP2P, calcEvictionCostWith_eq_some_iff]
  refine and_congr_right fun _ => and_congr_right fun hvictims => sumM_eq_some_iff ?_
  intro a ha y
  rw [chargeOf_latencyAware hweights hbound (isComplete_of_mem_charged hvictims ha) ha, and_assoc]

/-- Without weights of the single edges only an empty charge is computed. -/
theorem charged_eq_nil_of_weights_none
    (hweights : (view.getWeightTuner
      (view.getBeaconEdgeidx curKey)).weightInfo.localHitWeights = none)
    (h : coveredCalcEvictionCostP2P view curKey objectSize edgeset = some cost) :
    charged view objectSize edgeset = [] := by
  rw [coveredCalcEvictionCostP2P, calcEvictionCostWith_eq_some_iff] at h
  obtain ⟨-, hvictims, hsum⟩ := h
  apply eq_nil_iff_forall_not_mem.2
  intro a ha
  obtain ⟨y, hy⟩ := isSome_iff_exists.1
    (sumM_isSome_iff.1 (isSome_of_eq_some hsum) a ha)
  obtain ⟨-, hy⟩ := chargeOf_eq_some_iff.1 hy
  have hcomplete := isComplete_of_mem_charged hvictims ha
  obtain ⟨-, hlocal, hredirected, hreward⟩ := fields_of_isComplete hcomplete
  rw [latencyAwareReward, require_bind hcomplete, hlocal, hredirected, hreward, hweights] at hy
  cases hy

/-- What the latency-aware variant charges too little in total, under uniform latencies. -/
theorem sum_uniform_sub_latencyAware (victims : List EdgeVictim)
    (h : UniformLatencies view curKey c b)
    {weights : Nat → ℚ} (hweights : (view.getWeightTuner
      (view.getBeaconEdgeidx curKey)).weightInfo.localHitWeights = some weights) :
    (victims.map (uniformCharge
        (view.getWeightTuner (view.getBeaconEdgeidx curKey)).weightInfo.toWeightInfo view
        victims)).sum -
      (victims.map (latencyAwareCharge (view.getWeightTuner (view.getBeaconEdgeidx curKey)) weights
        view victims)).sum =
    (us b - us c - 1) *
        ((lastCopyVictims view victims).map fun a => a.1.redirectedCachedPopularity).sum +
      2 * (1 + (view.getWeightTuner (view.getBeaconEdgeidx curKey)).ewmaRemoteBeaconProb) * us c *
        ((copiedVictims view victims).map fun a => a.1.localCachedPopularity).sum := by
  obtain ⟨hlocal, hcooperative, hle⟩ := h.upToDate.weights
  have hsome := h.upToDate.localHitWeights h.isP2pEnable
  rw [hweights, some.injEq] at hsome
  simp only [h.crossedge, h.crossedgeArray, h.edgecloud] at hlocal hcooperative hsome
  have hcharge : ∀ a ∈ victims,
      uniformCharge (view.getWeightTuner (view.getBeaconEdgeidx curKey)).weightInfo.toWeightInfo
          view victims a =
        (if evictsLastCopies view victims a then
          (us b - us c - 1) * a.1.redirectedCachedPopularity
        else 2 * (1 + (view.getWeightTuner
          (view.getBeaconEdgeidx curKey)).ewmaRemoteBeaconProb) * us c *
            a.1.localCachedPopularity) +
        latencyAwareCharge (view.getWeightTuner (view.getBeaconEdgeidx curKey)) weights view
          victims a := by
    intro a ha
    rw [uniformCharge, latencyAwareCharge, hsome, Cache.calcLocalCachedReward]
    cases hlast : evictsLastCopies view victims a with
    | true =>
      simp only [if_true, Rounding.exact_apply]
      rw [hlocal, hcooperative]
      ring
    | false =>
      obtain ⟨edgeIdx, hnearest⟩ := exists_nearestCopy ha hlast
      simp only [Bool.false_eq_true, if_false, Rounding.exact_apply]
      rw [popularityNonegMinus_exact hle, hlocal, hcooperative, nearestLatency, hnearest]
      simp only [h.latencyFrom, h.edgecloud]
      ring
  rw [sub_eq_iff_eq_add, map_congr_left hcharge, sum_map_add, sum_by_copies,
    sum_map_mul_left, sum_map_mul_left]

/-- When the latency-aware cost is nonnegative: the copied victims, whose weights have the wrong
sign, must not outweigh the victims whose last copies are evicted. When it is the uniform cost: the
redirected popularities of the latter and the local popularities of the former have to cancel, and
at the greatest latency no victim may have copies left. The redirected reward popularities, which
the source reads, do not matter. -/
theorem latencyAwareCost_iff (view : PlacementView) (curKey : Key) (objectSize : Nat)
    (edgeset : Edgeset) :
    (∀ cost, (∀ i j, view.latencyFrom i j ≤ cloudLatency view curKey) →
      coveredCalcEvictionCostP2P view curKey objectSize edgeset = some cost →
      (0 ≤ cost ↔
        ((copiedVictims view (charged view objectSize edgeset)).map fun a =>
          (localHitWeightAt view curKey a.2 +
            nearestLatency view (charged view objectSize edgeset) a -
            us (cloudLatency view curKey)) * a.1.localCachedPopularity).sum ≤
        ((lastCopyVictims view (charged view objectSize edgeset)).map fun a =>
          localHitWeightAt view curKey a.2 * a.1.localCachedPopularity +
            a.1.redirectedCachedPopularity).sum)) ∧
    (∀ c b cost, UniformLatencies view curKey c b → c ≤ b →
      coveredCalcEvictionCost view curKey objectSize edgeset = some cost →
      (coveredCalcEvictionCostP2P view curKey objectSize edgeset = some cost ↔
        (c = uint32Max → copiedVictims view (charged view objectSize edgeset) = []) ∧
        (us b - us c - 1) * ((lastCopyVictims view (charged view objectSize edgeset)).map
            fun a => a.1.redirectedCachedPopularity).sum +
          2 * (1 + (view.getWeightTuner
              (view.getBeaconEdgeidx curKey)).ewmaRemoteBeaconProb) * us c *
            ((copiedVictims view (charged view objectSize edgeset)).map
              fun a => a.1.localCachedPopularity).sum = 0)) := by
  constructor
  · intro cost hbound hcost
    cases hweights : (view.getWeightTuner
        (view.getBeaconEdgeidx curKey)).weightInfo.localHitWeights with
    | none =>
      -- nothing is charged, and both sums are empty
      have hnil := charged_eq_nil_of_weights_none hweights hcost
      rw [coveredCalcEvictionCostP2P, calcEvictionCostWith_eq_some_iff, hnil] at hcost
      rw [hnil, ← Option.some.inj hcost.2.2]
      exact iff_of_true (le_refl 0) (le_refl 0)
    | some weights =>
      obtain ⟨-, -, -, rfl⟩ := (coveredCalcEvictionCostP2P_eq_some_iff hweights hbound).1 hcost
      have hweightAt : localHitWeightAt view curKey = weights := by
        funext edgeIdx
        rw [localHitWeightAt, hweights]
        rfl
      have hsplit := sum_by_copies view (charged view objectSize edgeset)
        (fun a => weights a.2 * a.1.localCachedPopularity + a.1.redirectedCachedPopularity)
        (fun a => (us (cloudLatency view curKey) -
          nearestLatency view (charged view objectSize edgeset) a - weights a.2) *
            a.1.localCachedPopularity)
      have hneg : ((copiedVictims view (charged view objectSize edgeset)).map fun a =>
          (us (cloudLatency view curKey) -
            nearestLatency view (charged view objectSize edgeset) a - weights a.2) *
              a.1.localCachedPopularity).sum =
          -((copiedVictims view (charged view objectSize edgeset)).map fun a =>
            (weights a.2 + nearestLatency view (charged view objectSize edgeset) a -
              us (cloudLatency view curKey)) * a.1.localCachedPopularity).sum := by
        rw [List.sum_neg, List.map_map]
        congr 1
        apply List.map_congr_left
        intro a _
        show _ = -_
        ring
      rw [hweightAt]
      have hcost : ((charged view objectSize edgeset).map (latencyAwareCharge
          (view.getWeightTuner (view.getBeaconEdgeidx curKey)) weights view
          (charged view objectSize edgeset))).sum = _ := hsplit.trans (by rw [hneg])
      rw [hcost, ← sub_eq_add_neg, sub_nonneg]
  · intro c b cost h hcb hcost
    have hweights := h.upToDate.localHitWeights h.isP2pEnable
    have hbound : ∀ i j, view.latencyFrom i j ≤ cloudLatency view curKey := by
      intro i j
      rw [h.latencyFrom, cloudLatency, h.edgecloud]
      exact hcb
    obtain ⟨hne, hvictims, haccountable, hsum⟩ := coveredCalcEvictionCost_eq_some_iff.1 hcost
    have hsub := sum_uniform_sub_latencyAware (charged view objectSize edgeset)
      h hweights
    rw [hsum] at hsub
    rw [coveredCalcEvictionCostP2P_eq_some_iff hweights hbound, ← hsub, sub_eq_zero]
    constructor
    · rintro ⟨-, -, hnear, hsame⟩
      refine ⟨?_, hsame.symm⟩
      rintro rfl
      apply List.filter_eq_nil_iff.2
      intro a ha hcopied
      have hcopied := Bool.eq_false_iff.2 (of_decide_eq_true hcopied)
      obtain ⟨edgeIdx, hnearest⟩ := exists_nearestCopy ha hcopied
      have hlt := (hnear a ha).2 hcopied edgeIdx hnearest
      rw [h.latencyTo] at hlt
      exact UInt32.lt_irrefl _ hlt
    · rintro ⟨hgreatest, hsame⟩
      refine ⟨hne, hvictims, ?_, hsame.symm⟩
      intro a ha
      refine ⟨haccountable a ha, ?_⟩
      intro hcopied edgeIdx hnearest
      rw [h.latencyTo]
      by_cases hc : c = uint32Max
      · have hmem : a ∈ copiedVictims view (charged view objectSize edgeset) :=
          List.mem_filter.2 ⟨ha, decide_eq_true (Bool.eq_false_iff.1 hcopied)⟩
        rw [hgreatest hc] at hmem
        cases hmem
      · exact lt_uint32Max hc

end Costs

/-! ## Two placements on an edge with one victim -/

/-- A tuner with latency `1` to the other edges and `2` to the cloud. -/
def sampleTuner : WeightTuner where
  ewmaRemoteBeaconProb := 1 / 2
  ewmaPropagationLatencyClientedgeUs := 0
  ewmaPropagationLatencyCrossedgeUs := 1
  ewmaPropagationLatencyEdgecloudUs := 2
  ewmaPropagationLatencyCrossedgeUsArray := fun _ => 1
  weightInfo := {
    localHitWeight := 5 / 2
    cooperativeHitWeight := 1
    localHitWeights := some fun _ => 1 / 2 * us 1 + us 2
    cooperativeHitWeights := some fun _ => us (2 - 1) }
  isP2pEnable := true

/-- The only victim of a full edge, requested once by the clients of the edge. -/
def sampleVictim : VictimCacheinfo := VictimCacheinfo.create ⟨[1]⟩ 1 1 0 1 0

/-- A full edge `0`; its victim is cached at the given edges. -/
def sampleView (cachedAt : List Nat) : PlacementView where
  getBeaconEdgeidx _ := 0
  getWeightTuner _ := sampleTuner
  getEvictinfo _ := some ⟨0, [sampleVictim]⟩
  fetchVictimCacheinfosForRequiredSize _ _ := none
  getEdgeNodeIdxes _ := some cachedAt
  latencyDistribution := .v1
  debugP2pLatencyMatrix _ _ := 1

theorem uniformLatencies_sampleView (cachedAt : List Nat) :
    UniformLatencies (sampleView cachedAt) ⟨[2]⟩ 1 2 where
  crossedge _ := rfl
  crossedgeArray _ _ := rfl
  matrix _ _ := rfl
  edgecloud _ := rfl
  upToDate := by
    show sampleTuner.updateWeightInfo .exact = some sampleTuner
    have hlocal : sampleTuner.globalMissLatency .exact - sampleTuner.localHitLatency .exact =
        5 / 2 := by
      decide +kernel
    have hcooperative :
        sampleTuner.globalMissLatency .exact - sampleTuner.cooperativeHitLatency .exact = 1 := by
      decide +kernel
    rw [WeightTuner.updateWeightInfo]
    simp only [hlocal, hcooperative]
    rw [require_bind (by decide +kernel)]
    rfl
  isP2pEnable := rfl

theorem latencyFrom_sampleView (cachedAt : List Nat) (i j : Nat) :
    (sampleView cachedAt).latencyFrom i j ≤ cloudLatency (sampleView cachedAt) ⟨[2]⟩ := by
  show (1 : UInt32) ≤ 2
  decide

/-- The last copy of a victim without redirected requests costs the same in both variants. -/
theorem latencyAwareCost_lastCopy :
    (0 : ℚ) ≤ 5 / 2 ∧
      coveredCalcEvictionCostP2P (sampleView [0]) ⟨[2]⟩ 1 [0] = some (5 / 2) := by
  obtain ⟨hnonneg, hsame⟩ := latencyAwareCost_iff (sampleView [0]) ⟨[2]⟩ 1 [0]
  have hcost : coveredCalcEvictionCostP2P (sampleView [0]) ⟨[2]⟩ 1 [0] = some (5 / 2) :=
    (hsame 1 2 (5 / 2) (uniformLatencies_sampleView [0]) (by decide) (by decide +kernel)).2
      ⟨by decide +kernel, by decide +kernel⟩
  exact ⟨(hnonneg (5 / 2) (latencyFrom_sampleView [0]) hcost).2 (by decide +kernel), hcost⟩

/-- A victim that edge `1` still caches: all latencies are uniform and at most the one to the cloud,
the redirected reward popularity is the latency saved times the redirected popularity, and the
latency-aware cost is the negative of the uniform one. -/
theorem latencyAwareCost_negative :
    (∀ i j, (sampleView [0, 1]).latencyFrom i j ≤ cloudLatency (sampleView [0, 1]) ⟨[2]⟩) ∧
    UniformLatencies (sampleView [0, 1]) ⟨[2]⟩ 1 2 ∧
    (∀ a ∈ charged (sampleView [0, 1]) 1 [0],
      a.1.redirectedCachedReward = (us 2 - us 1) * a.1.redirectedCachedPopularity) ∧
    coveredCalcEvictionCost (sampleView [0, 1]) ⟨[2]⟩ 1 [0] = some (3 / 2) ∧
    coveredCalcEvictionCostP2P (sampleView [0, 1]) ⟨[2]⟩ 1 [0] = some (-3 / 2) := by
  refine ⟨latencyFrom_sampleView [0, 1], uniformLatencies_sampleView [0, 1], ?_, ?_, ?_⟩
  · decide +kernel
  · decide +kernel
  · decide +kernel

end Covered.Simulator
