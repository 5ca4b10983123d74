import Covered.Simulator.LatencyAwareCost

/-!
# Greedy calculation of a placement

The placement calculation goes through the edges that request an uncached object, the most popular
ones first, and considers for each `i` to place the object at the first `i` edges. The gain of a
placement is its admission benefit minus its eviction cost, and the placement with the largest
gain is chosen if that is positive.

The plain branch takes the benefit of the whole placement from the sum of its popularities. The
latency-aware branch takes the benefit of the `i`-th edge alone, against the cost of all `i` edges.
`admissionBenefitP2P_iff` says when the two benefits agree under uniform latencies: only if what the
earlier edges of the placement contribute is nothing.
-/

set_option autoImplicit false

namespace Covered.Simulator

open Common Edge List
open Edge.WeightTuner (us us_nonneg us_sub)
open Lib Lib.Checked
open Popularity (Edgeset)

/-- An uncached object: its size, and the edges that track it with their popularities, in
descending order. -/
structure LocalUncachedObjinfo where
  objsize : Nat
  sortedLocalUncachedPopularities : List (Nat × Popularity)

/-- The most popular edges; the loop takes a first one before it looks at the count. -/
def LocalUncachedObjinfo.getTopkLocalUncachedPopularities (objinfo : LocalUncachedObjinfo)
    (coveredTopkEdgecnt : Nat) : Option (List (Nat × Popularity)) := do
  let topk := objinfo.sortedLocalUncachedPopularities.take (max coveredTopkEdgecnt 1)
  require (topk.length ≤ coveredTopkEdgecnt)
  return topk

/-- What the calculation reads besides the information for the eviction cost; the latency to the
cloud is the one that the simulator of propagation generates. -/
structure CalculationView extends PlacementView where
  genPropagationLatency : Nat → UInt32
  getLocalUncachedObjinfo : Key → Option LocalUncachedObjinfo

namespace CalculationView

/-- The tuner of the beacon of a key. -/
def beaconTuner (view : CalculationView) (curKey : Key) : WeightTuner :=
  view.getWeightTuner (view.getBeaconEdgeidx curKey)

def isGlobalCached (view : CalculationView) (curKey : Key) : Bool :=
  (view.getEdgeNodeIdxes curKey).isSome

/-! ## Admission benefit -/

/-- The benefit in the plain branch, with the weights of the beacon. -/
def admissionBenefit (view : CalculationView) (curKey : Key)
    (topiLocalUncachedPopularitySum sumMinusTopi : Popularity) : DeltaReward :=
  Cache.calcLocalUncachedReward .exact (view.beaconTuner curKey).weightInfo.toWeightInfo
    topiLocalUncachedPopularitySum (view.isGlobalCached curKey) sumMinusTopi

/-- The latency from an edge to the beacon; the tuner's average stands for an unknown latency. -/
def beaconLatency (view : CalculationView) (beaconIdx topiEdgeidx : Nat) : UInt32 :=
  match view.latencyDistribution with
  | .v1 => view.debugP2pLatencyMatrix beaconIdx topiEdgeidx
  | .v2 =>
      let topiTuner := view.getWeightTuner topiEdgeidx
      let latency := topiTuner.ewmaPropagationLatencyCrossedgeUsArray beaconIdx
      if latency = 0 then topiTuner.ewmaPropagationLatencyCrossedgeUs else latency

/-- The weight of a local hit at an edge. -/
def deltaLocal (view : CalculationView) (beaconIdx topiEdgeidx : Nat) : ℚ :=
  (view.getWeightTuner topiEdgeidx).ewmaRemoteBeaconProb *
      us (view.beaconLatency beaconIdx topiEdgeidx) +
    1 * us (view.genPropagationLatency beaconIdx)

/-- The weight of a hit of an edge at a node. The matrix is subtracted as an unsigned number. -/
def deltaRemote (view : CalculationView) (beaconIdx topiEdgeidx node : Nat) : ℚ :=
  match view.latencyDistribution with
  | .v1 => us (view.genPropagationLatency beaconIdx - view.debugP2pLatencyMatrix topiEdgeidx node)
  | .v2 => 1 * us (view.genPropagationLatency beaconIdx) -
      1 * us ((view.getWeightTuner topiEdgeidx).ewmaPropagationLatencyCrossedgeUsArray node)

/-- One node of the search for the nearest node that caches the object. -/
def nearerNode (view : CalculationView) (topiEdgeidx : Nat) (nearest : Option Nat × UInt32)
    (candidate : Nat) : Option Nat × UInt32 :=
  if candidate = topiEdgeidx then nearest
  else if view.latencyTo topiEdgeidx candidate < nearest.2 then
    (some candidate, view.latencyTo topiEdgeidx candidate)
  else nearest

/-- The benefit in the latency-aware branch. -/
def admissionBenefitP2P (view : CalculationView) (curKey : Key) (topk : List (Nat × Popularity))
    (topicnt : Nat) : Option DeltaReward := do
  let topi ← topk[topicnt - 1]?
  let beaconIdx := view.getBeaconEdgeidx curKey
  match view.getEdgeNodeIdxes curKey with
  | some cachedEdgeNodes =>
      let nearest := cachedEdgeNodes.foldl (view.nearerNode topi.1) (none, uint32Max)
      let nMin ← nearest.1
      return topi.2 * (view.deltaLocal beaconIdx topi.1 - view.deltaRemote beaconIdx topi.1 nMin)
  | none =>
      let remoteAdmissionBenefit :=
        ((topk.drop topicnt).map fun j => view.deltaRemote beaconIdx topi.1 j.1 * j.2).sum
      return topi.2 * view.deltaLocal beaconIdx topi.1 + remoteAdmissionBenefit

/-! ## Choice of a placement -/

/-- What the greedy loop carries from one placement to the next. -/
structure Greedy where
  placementEdgeset : Edgeset := []
  topiLocalUncachedPopularitySum : Popularity := 0
  maxPlacementGain : ℚ := 0
  bestPlacementEdgeset : Edgeset := []
deriving DecidableEq

/-- A set of edges with one more edge. -/
def insertEdge (edgeset : Edgeset) (edgeIdx : Nat) : Edgeset :=
  if edgeIdx ∈ edgeset then edgeset else edgeset ++ [edgeIdx]

/-- The gain of the placement at the first `topicnt` edges. -/
def placementGain (view : CalculationView) (curKey : Key) (objectSize : Nat)
    (topk : List (Nat × Popularity)) (isP2pEnabled : Bool) (topicnt : Nat)
    (topiSum sumMinusTopi : Popularity) (placementEdgeset : Edgeset) : Option ℚ := do
  if isP2pEnabled = false then
    let evictionCost ←
      coveredCalcEvictionCost view.toPlacementView curKey objectSize placementEdgeset
    return view.admissionBenefit curKey topiSum sumMinusTopi - evictionCost
  else
    let admissionBenefit ← view.admissionBenefitP2P curKey topk topicnt
    let evictionCost ←
      coveredCalcEvictionCostP2P view.toPlacementView curKey objectSize placementEdgeset
    return admissionBenefit - evictionCost

/-- Consider one edge more. -/
def considerTopi (view : CalculationView) (curKey : Key) (objectSize : Nat)
    (topk : List (Nat × Popularity)) (isP2pEnabled : Bool) (s : Greedy) (topicnt : Nat) :
    Option Greedy := do
  let topi ← topk[topicnt - 1]?
  let allSum := (topk.map Prod.snd).sum
  let placementEdgeset := insertEdge s.placementEdgeset topi.1
  let topiSum := s.topiLocalUncachedPopularitySum + topi.2
  require (isApproxLargerEqual allSum topiSum = true)
  let gain ← view.placementGain curKey objectSize topk isP2pEnabled topicnt topiSum
    (popularityNonegMinus .exact allSum topiSum) placementEdgeset
  if topicnt = 1 ∨ gain > s.maxPlacementGain then
    return ⟨placementEdgeset, topiSum, gain, placementEdgeset⟩
  else return ⟨placementEdgeset, topiSum, s.maxPlacementGain, s.bestPlacementEdgeset⟩

/-- The choice in one of the branches: the best placement, if its gain is positive. -/
def choosePlacement (view : CalculationView) (curKey : Key) (coveredTopkEdgecnt : Nat)
    (isP2pEnabled : Bool) : Option (Option Edgeset) := do
  let objinfo ← view.getLocalUncachedObjinfo curKey
  let topk ← objinfo.getTopkLocalUncachedPopularities coveredTopkEdgecnt
  require (topk.length > 0)
  let s ← (List.range' 1 topk.length).foldlM
    (view.considerTopi curKey objinfo.objsize topk isP2pEnabled) {}
  if s.maxPlacementGain > 0 then return some s.bestPlacementEdgeset else return none

/-- The placement calculation, in the branch that the beacon has enabled. -/
def coveredPlacementCalculation (view : CalculationView) (curKey : Key)
    (coveredTopkEdgecnt : Nat) : Option (Option Edgeset) :=
  view.choosePlacement curKey coveredTopkEdgecnt (view.beaconTuner curKey).isP2pEnable

/-! ## The two benefits under uniform latencies -/

/-- All latencies between edges are `c`, those to the cloud are `b`, and the beacon of a key is
another edge with probability `p` for all edges. -/
structure UniformCalculation (view : CalculationView) (curKey : Key) (c b : UInt32) (p : ℚ) :
    Prop where
  latencies : UniformLatencies view.toPlacementView curKey c b
  remoteBeaconProb : ∀ i, (view.getWeightTuner i).ewmaRemoteBeaconProb = p
  genPropagationLatency : ∀ i, view.genPropagationLatency i = b

/-- The sum of the first `i` popularities. -/
def topiSum (topk : List (Nat × Popularity)) (i : Nat) : Popularity :=
  ((topk.take i).map Prod.snd).sum

/-- The first `i` edges. -/
def topiEdgeset (topk : List (Nat × Popularity)) (i : Nat) : Edgeset :=
  ((topk.take i).map Prod.fst).foldl insertEdge []

/-- The benefit of the placement at the first `i` edges in the plain branch. -/
def topiBenefit (view : CalculationView) (curKey : Key) (topk : List (Nat × Popularity))
    (i : Nat) : DeltaReward :=
  view.admissionBenefit curKey (topiSum topk i)
    (popularityNonegMinus .exact (topk.map Prod.snd).sum (topiSum topk i))

/-- What the edges before the `i`-th contribute is nothing, and the nearest copy of a cached object
is found. -/
def LastEdgeSuffices (view : CalculationView) (curKey : Key) (c b : UInt32) (p : ℚ)
    (topk : List (Nat × Popularity)) (i : Nat) : Prop :=
  match view.getEdgeNodeIdxes curKey with
  | none => (p * us c + us b) * topiSum topk (i - 1) = 0
  | some cachedEdgeNodes =>
      (1 + p) * us c * topiSum topk (i - 1) = 0 ∧ c ≠ uint32Max ∧
        ∃ node ∈ cachedEdgeNodes, (topk[i - 1]?).map Prod.fst ≠ some node

section Uniform

variable {view : CalculationView} {curKey : Key} {c b : UInt32} {p : ℚ}
variable {topk : List (Nat × Popularity)} {i : Nat}

variable {topi : Nat × Popularity}

theorem topiSum_succ (h : topk[i]? = some topi) :
    topiSum topk (i + 1) = topiSum topk i + topi.2 := by
  rw [topiSum, topiSum, take_add_one, h, map_append, sum_append]
  exact congrArg (_ + ·) (add_zero topi.2)

theorem topiEdgeset_succ (h : topk[i]? = some topi) :
    topiEdgeset topk (i + 1) = insertEdge (topiEdgeset topk i) topi.1 := by
  rw [topiEdgeset, topiEdgeset, take_add_one, h, map_append, foldl_append]
  rfl

theorem sum_eq_topiSum_add (topk : List (Nat × Popularity)) (i : Nat) :
    (topk.map Prod.snd).sum = topiSum topk i + ((topk.drop i).map Prod.snd).sum := by
  rw [topiSum, ← sum_append, ← map_append, take_append_drop]

theorem UniformCalculation.deltaLocal (h : UniformCalculation view curKey c b p)
    (beaconIdx topiEdgeidx : Nat) :
    view.deltaLocal beaconIdx topiEdgeidx = p * us c + us b := by
  have hbeacon : view.beaconLatency beaconIdx topiEdgeidx = c := by
    rw [beaconLatency]
    cases view.latencyDistribution with
    | v1 => exact h.latencies.matrix beaconIdx topiEdgeidx
    | v2 =>
      show (if _ = (0 : UInt32) then _ else _) = c
      rw [h.latencies.crossedgeArray, h.latencies.crossedge, ite_self]
  rw [CalculationView.deltaLocal, hbeacon, h.remoteBeaconProb, h.genPropagationLatency, one_mul]

theorem UniformCalculation.deltaRemote (h : UniformCalculation view curKey c b p) (hcb : c ≤ b)
    (beaconIdx topiEdgeidx node : Nat) :
    view.deltaRemote beaconIdx topiEdgeidx node = us b - us c := by
  rw [CalculationView.deltaRemote]
  cases view.latencyDistribution with
  | v1 =>
    show us (_ - _) = _
    rw [h.genPropagationLatency, h.latencies.matrix, us_sub hcb]
  | v2 =>
    show 1 * us _ - 1 * us _ = _
    rw [h.genPropagationLatency, h.latencies.crossedgeArray, one_mul, one_mul]

/-- The search is the one of the eviction cost, with an empty set of victims. -/
theorem nearerNode_eq (topiEdgeidx : Nat) :
    view.nearerNode topiEdgeidx = closerNode view.toPlacementView ∅ topiEdgeidx := by
  funext nearest candidate
  rw [nearerNode, closerNode]
  by_cases hsame : candidate = topiEdgeidx
  · rw [if_pos hsame, if_neg fun h => h.2 hsame]
  · have hother : candidate ∉ (∅ : Finset Nat) ∧ candidate ≠ topiEdgeidx :=
      ⟨Finset.notMem_empty candidate, hsame⟩
    rw [if_neg hsame, if_pos hother]

section Uniform

variable (h : UniformCalculation view curKey c b p)
include h

/-- A nearest copy is found iff there is one, and latencies are not the greatest number. -/
theorem UniformCalculation.nearest (topiEdgeidx : Nat) (cached : List Nat) :
    (cached.foldl (view.nearerNode topiEdgeidx) (none, uint32Max)).1.isSome = true ↔
      c ≠ uint32Max ∧ ∃ node ∈ cached, topiEdgeidx ≠ node := by
  rw [nearerNode_eq, foldl_closerNode]
  simp only [h.latencies.latencyTo]
  cases hargmin : (cached.filter fun node =>
      decide (node ∉ (∅ : Finset Nat) ∧ node ≠ topiEdgeidx)).argmin fun _ => c.toNat with
  | none =>
    rw [argmin_eq_none] at hargmin
    refine iff_of_false (fun h => nomatch h) ?_
    rintro ⟨-, node, hnode, hne⟩
    have hkept : node ∈ cached.filter fun node =>
        decide (node ∉ (∅ : Finset Nat) ∧ node ≠ topiEdgeidx) :=
      mem_filter.2 ⟨hnode, decide_eq_true ⟨Finset.notMem_empty node, Ne.symm hne⟩⟩
    rw [hargmin] at hkept
    cases hkept
  | some node =>
    obtain ⟨hnode, hother⟩ := mem_filter.1 (argmin_mem hargmin)
    have hne := (of_decide_eq_true hother).2
    by_cases hc : c = uint32Max
    · have hlt : ¬ c < uint32Max := fun hlt => UInt32.lt_irrefl _ (hc ▸ hlt)
      simp only [if_neg hlt]
      exact iff_of_false (fun h => nomatch h) fun h => h.1 hc
    · simp only [if_pos (lt_uint32Max hc)]
      exact iff_of_true rfl ⟨hc, node, hnode, Ne.symm hne⟩

/-- The benefit of the latency-aware branch is the one of the last edge. -/
theorem UniformCalculation.admissionBenefitP2P (hcb : c ≤ b) (htopi : topk[i]? = some topi)
    {benefit : ℚ} :
    view.admissionBenefitP2P curKey topk (i + 1) = some benefit ↔
      match view.getEdgeNodeIdxes curKey with
      | none => topi.2 * (p * us c + us b) +
          (us b - us c) * ((topk.drop (i + 1)).map Prod.snd).sum = benefit
      | some cachedEdgeNodes =>
          (c ≠ uint32Max ∧ ∃ node ∈ cachedEdgeNodes, topi.1 ≠ node) ∧
            topi.2 * ((1 + p) * us c) = benefit := by
  rw [CalculationView.admissionBenefitP2P, Nat.add_sub_cancel, htopi]
  simp only [some_bind, h.deltaLocal, h.deltaRemote hcb]
  cases view.getEdgeNodeIdxes curKey with
  | none =>
    rw [sum_map_mul_left]
    exact Option.some_inj
  | some cached =>
    show _ ↔ (c ≠ uint32Max ∧ ∃ node ∈ cached, topi.1 ≠ node) ∧ _
    rw [← h.nearest topi.1 cached]
    show (Option.bind (cached.foldl (view.nearerNode topi.1) (none, uint32Max)).1 fun _ =>
      some (topi.2 * (p * us c + us b - (us b - us c)))) = some benefit ↔ _
    cases (cached.foldl (view.nearerNode topi.1) (none, uint32Max)).1 with
    | none => exact iff_of_false (fun h => nomatch h) fun h => Bool.false_ne_true h.1
    | some node =>
      have hweight : p * us c + us b - (us b - us c) = (1 + p) * us c := by ring
      rw [Option.bind_some, hweight]
      exact Option.some_inj.trans (and_iff_right rfl).symm

/-- The benefit of the plain branch, with the weights of up-to-date tuners. -/
theorem UniformCalculation.topiBenefit (hnonneg : ∀ entry ∈ topk, 0 ≤ entry.2) :
    view.topiBenefit curKey topk i =
      match view.getEdgeNodeIdxes curKey with
      | none => (p * us c + us b) * topiSum topk i +
          (us b - us c) * ((topk.drop i).map Prod.snd).sum
      | some _ => (1 + p) * us c * topiSum topk i := by
  have hrest : popularityNonegMinus .exact (topk.map Prod.snd).sum (topiSum topk i) =
      ((topk.drop i).map Prod.snd).sum := by
    have hpos : 0 ≤ ((topk.drop i).map Prod.snd).sum := by
      apply sum_nonneg
      intro x hx
      obtain ⟨entry, hentry, rfl⟩ := mem_map.1 hx
      exact hnonneg entry (mem_of_mem_drop hentry)
    rw [sum_eq_topiSum_add topk i, popularityNonegMinus_exact (le_add_of_nonneg_right hpos),
      add_sub_cancel_left]
  obtain ⟨hlocal, hcooperative, hle⟩ := h.latencies.upToDate.weights
  rw [h.latencies.crossedge, h.latencies.edgecloud, h.remoteBeaconProb] at hlocal
  rw [h.latencies.crossedge, h.latencies.edgecloud] at hcooperative
  rw [CalculationView.topiBenefit, hrest, CalculationView.admissionBenefit, beaconTuner,
    isGlobalCached, Cache.calcLocalUncachedReward]
  cases view.getEdgeNodeIdxes curKey with
  | none =>
    simp only [Option.isSome_none, Bool.false_eq_true, if_false, Rounding.exact_apply]
    rw [hlocal, hcooperative]
  | some cached =>
    simp only [Option.isSome_some, if_true, Rounding.exact_apply]
    rw [popularityNonegMinus_exact hle, hlocal, hcooperative]
    ring

/-- The benefits agree iff the earlier edges contribute nothing. -/
theorem UniformCalculation.admissionBenefitP2P_iff (hcb : c ≤ b)
    (hnonneg : ∀ entry ∈ topk, 0 ≤ entry.2) (hi : 1 ≤ i) (hlength : i ≤ topk.length) :
    view.admissionBenefitP2P curKey topk i = some (view.topiBenefit curKey topk i) ↔
      view.LastEdgeSuffices curKey c b p topk i := by
  obtain ⟨i, rfl⟩ := Nat.exists_eq_add_of_le' hi
  have htopi : topk[i]? = some topk[i] := getElem?_eq_getElem hlength
  rw [h.admissionBenefitP2P hcb htopi, h.topiBenefit hnonneg, LastEdgeSuffices,
    Nat.add_sub_cancel, htopi, topiSum_succ htopi]
  cases view.getEdgeNodeIdxes curKey with
  | none =>
    show _ = _ ↔ _ = _
    constructor
    · intro heq
      linarith
    · intro heq
      linarith
  | some cached =>
    have hfst : ∀ node, (some topk[i]).map Prod.fst ≠ some node ↔ topk[i].1 ≠ node := fun node =>
      not_congr Option.some_inj
    simp only [hfst]
    constructor
    · rintro ⟨hnearest, heq⟩
      exact ⟨by linarith, hnearest⟩
    · rintro ⟨heq, hnearest⟩
      exact ⟨hnearest, by linarith⟩

end Uniform

/-! ## The two choices -/

/-- The state after the first `i` edges. -/
structure Considered (topk : List (Nat × Popularity)) (i : Nat) (s : Greedy) : Prop where
  placementEdgeset : s.placementEdgeset = topiEdgeset topk i
  topiLocalUncachedPopularitySum : s.topiLocalUncachedPopularitySum = topiSum topk i

/-- One edge more: its gain decides whether the placement is the best one. -/
theorem considerTopi_eq {s : Greedy} (hs : Considered topk i s) (hi : i < topk.length)
    (objectSize : Nat) (isP2pEnabled : Bool) :
    view.considerTopi curKey objectSize topk isP2pEnabled s (i + 1) =
      (require.{0}
        (isApproxLargerEqual (topk.map Prod.snd).sum (topiSum topk (i + 1)) = true)).bind
        fun _ => (view.placementGain curKey objectSize topk isP2pEnabled (i + 1)
          (topiSum topk (i + 1))
          (popularityNonegMinus .exact (topk.map Prod.snd).sum (topiSum topk (i + 1)))
          (topiEdgeset topk (i + 1))).bind fun gain =>
            if i + 1 = 1 ∨ gain > s.maxPlacementGain then
              some ⟨topiEdgeset topk (i + 1), topiSum topk (i + 1), gain,
                topiEdgeset topk (i + 1)⟩
            else
              some ⟨topiEdgeset topk (i + 1), topiSum topk (i + 1), s.maxPlacementGain,
                s.bestPlacementEdgeset⟩ := by
  have htopi : topk[i]? = some topk[i] := getElem?_eq_getElem hi
  rw [considerTopi, Nat.add_sub_cancel, htopi, topiSum_succ htopi, topiEdgeset_succ htopi,
    ← hs.placementEdgeset, ← hs.topiLocalUncachedPopularitySum]
  rfl

theorem considered_succ {s s' : Greedy} (hs : Considered topk i s) (hi : i < topk.length)
    {objectSize : Nat} {isP2pEnabled : Bool}
    (h : view.considerTopi curKey objectSize topk isP2pEnabled s (i + 1) = some s') :
    Considered topk (i + 1) s' := by
  rw [considerTopi_eq hs hi] at h
  obtain ⟨-, h⟩ := require_bind_iff.1 h
  obtain ⟨gain, -, h⟩ := bind_eq_some_iff.1 h
  split at h
  · cases h
    exact ⟨rfl, rfl⟩
  · cases h
    exact ⟨rfl, rfl⟩

/-- Where the benefits and the costs agree for every prefix, so does the choice. -/
theorem choosePlacement_congr {coveredTopkEdgecnt : Nat}
    (hsame : ∀ objinfo topk, view.getLocalUncachedObjinfo curKey = some objinfo →
      objinfo.getTopkLocalUncachedPopularities coveredTopkEdgecnt = some topk →
      ∀ i, 1 ≤ i → i ≤ topk.length →
        view.admissionBenefitP2P curKey topk i = some (view.topiBenefit curKey topk i) ∧
        coveredCalcEvictionCostP2P view.toPlacementView curKey objinfo.objsize
            (topiEdgeset topk i) =
          coveredCalcEvictionCost view.toPlacementView curKey objinfo.objsize
            (topiEdgeset topk i)) :
    view.choosePlacement curKey coveredTopkEdgecnt true =
      view.choosePlacement curKey coveredTopkEdgecnt false := by
  rw [choosePlacement, choosePlacement]
  cases hobjinfo : view.getLocalUncachedObjinfo curKey with
  | none => rfl
  | some objinfo =>
    simp only [Option.bind_eq_bind, Option.bind_some]
    cases htopk : objinfo.getTopkLocalUncachedPopularities coveredTopkEdgecnt with
    | none => rfl
    | some topk =>
      simp only [Option.bind_some]
      have hinitial := hsame objinfo topk hobjinfo htopk
      have key : ∀ m i (s : Greedy), i + m = topk.length → Considered topk i s →
          (range' (i + 1) m).foldlM (view.considerTopi curKey objinfo.objsize topk true) s =
            (range' (i + 1) m).foldlM
              (view.considerTopi curKey objinfo.objsize topk false) s := by
        intro m
        induction m with
        | zero => exact fun i s _ _ => rfl
        | succ m ih =>
          intro i s hlength hs
          have hi : i < topk.length := by omega
          obtain ⟨hbenefit, hcost⟩ := hinitial (i + 1) (Nat.succ_pos i) hi
          have hgain : view.placementGain curKey objinfo.objsize topk true (i + 1)
              (topiSum topk (i + 1))
              (popularityNonegMinus .exact (topk.map Prod.snd).sum (topiSum topk (i + 1)))
              (topiEdgeset topk (i + 1)) =
            view.placementGain curKey objinfo.objsize topk false (i + 1) (topiSum topk (i + 1))
              (popularityNonegMinus .exact (topk.map Prod.snd).sum (topiSum topk (i + 1)))
              (topiEdgeset topk (i + 1)) := by
            rw [placementGain, placementGain, if_neg Bool.false_ne_true.symm, if_pos rfl, hbenefit,
              hcost]
            rfl
          have hstep : view.considerTopi curKey objinfo.objsize topk true s (i + 1) =
              view.considerTopi curKey objinfo.objsize topk false s (i + 1) := by
            rw [considerTopi_eq hs hi, considerTopi_eq hs hi, hgain]
          rw [range'_succ, foldlM_cons, foldlM_cons, hstep]
          cases hnext : view.considerTopi curKey objinfo.objsize topk false s (i + 1) with
          | none => rfl
          | some s' => exact ih (i + 1) s' (by omega) (considered_succ hs hi hnext)
      have hloop := key topk.length 0 {} (Nat.zero_add _) ⟨rfl, rfl⟩
      rw [Nat.zero_add] at hloop
      rw [hloop]

/-- Under uniform latencies the benefits of the two branches agree for the first `i` edges iff what
the earlier ones contribute is nothing, and with equal costs that makes the choices agree. -/
theorem latencyAwareBenefit_iff (h : UniformCalculation view curKey c b p) (hcb : c ≤ b) :
    (∀ (topk : List (Nat × Popularity)) (i : Nat), (∀ entry ∈ topk, 0 ≤ entry.2) →
      1 ≤ i → i ≤ topk.length →
      (view.admissionBenefitP2P curKey topk i = some (view.topiBenefit curKey topk i) ↔
        view.LastEdgeSuffices curKey c b p topk i)) ∧
    ∀ coveredTopkEdgecnt, (∀ objinfo topk, view.getLocalUncachedObjinfo curKey = some objinfo →
      objinfo.getTopkLocalUncachedPopularities coveredTopkEdgecnt = some topk →
      (∀ entry ∈ topk, 0 ≤ entry.2) ∧ ∀ i, 1 ≤ i → i ≤ topk.length →
        view.LastEdgeSuffices curKey c b p topk i ∧
        coveredCalcEvictionCostP2P view.toPlacementView curKey objinfo.objsize
            (topiEdgeset topk i) =
          coveredCalcEvictionCost view.toPlacementView curKey objinfo.objsize
            (topiEdgeset topk i)) →
      view.choosePlacement curKey coveredTopkEdgecnt true =
        view.choosePlacement curKey coveredTopkEdgecnt false := by
  constructor
  · intro topk i hnonneg hi hlength
    exact h.admissionBenefitP2P_iff hcb hnonneg hi hlength
  · intro coveredTopkEdgecnt hsame
    apply choosePlacement_congr
    intro objinfo topk hobjinfo htopk i hi hlength
    obtain ⟨hnonneg, hinitial⟩ := hsame objinfo topk hobjinfo htopk
    obtain ⟨hsuffices, hcost⟩ := hinitial i hi hlength
    exact ⟨(h.admissionBenefitP2P_iff hcb hnonneg hi hlength).2 hsuffices, hcost⟩

end Uniform

/-! ## Placements at empty edges -/

/-- Empty edges that request an uncached object with the given popularities. -/
def sampleCalculation (popularities : List (Nat × Popularity)) : CalculationView where
  getBeaconEdgeidx _ := 0
  getWeightTuner _ := sampleTuner
  getEvictinfo _ := none
  fetchVictimCacheinfosForRequiredSize _ _ := none
  getEdgeNodeIdxes _ := none
  latencyDistribution := .v1
  debugP2pLatencyMatrix _ _ := 1
  genPropagationLatency _ := 2
  getLocalUncachedObjinfo _ := some ⟨1, popularities⟩

theorem uniformCalculation_sample (popularities : List (Nat × Popularity)) :
    (sampleCalculation popularities).UniformCalculation ⟨[2]⟩ 1 2 (1 / 2) where
  latencies := {
    crossedge _ := rfl
    crossedgeArray _ _ := rfl
    matrix _ _ := rfl
    edgecloud _ := rfl
    upToDate := (uniformLatencies_sampleView []).upToDate
    isP2pEnable := rfl }
  remoteBeaconProb _ := rfl
  genPropagationLatency _ := rfl

/-- With one edge the branches agree. -/
theorem latencyAwareBenefit_oneEdge :
    (sampleCalculation [(0, 1)]).admissionBenefitP2P ⟨[2]⟩ [(0, 1)] 1 =
        some ((sampleCalculation [(0, 1)]).topiBenefit ⟨[2]⟩ [(0, 1)] 1) ∧
      (sampleCalculation [(0, 1)]).choosePlacement ⟨[2]⟩ 1 true =
        (sampleCalculation [(0, 1)]).choosePlacement ⟨[2]⟩ 1 false := by
  obtain ⟨hbenefit, hchoice⟩ :=
    latencyAwareBenefit_iff (uniformCalculation_sample [(0, 1)]) (by decide)
  have hsuffices : (sampleCalculation [(0, 1)]).LastEdgeSuffices ⟨[2]⟩ 1 2 (1 / 2) [(0, 1)] 1 := by
    show (_ : ℚ) = 0
    decide +kernel
  refine ⟨(hbenefit [(0, 1)] 1 (by decide +kernel) le_rfl le_rfl).2 hsuffices, hchoice 1 ?_⟩
  intro objinfo topk hobjinfo htopk
  cases hobjinfo
  cases htopk
  refine ⟨by decide +kernel, fun i hi hlength => ?_⟩
  have hone : i = 1 := Nat.le_antisymm hlength hi
  subst hone
  exact ⟨hsuffices, by decide +kernel⟩

/-- Two edges request an object equally often. The costs of both placements are `0` in both
branches; the plain branch places the object at both edges, the latency-aware branch, which takes
the benefit of the second edge alone for the benefit of both, at the first one. -/
theorem latencyAwareBenefit_twoEdges :
    (sampleCalculation [(0, 1), (1, 1)]).UniformCalculation ⟨[2]⟩ 1 2 (1 / 2) ∧
    (∀ i ∈ [1, 2],
      coveredCalcEvictionCostP2P (sampleCalculation [(0, 1), (1, 1)]).toPlacementView ⟨[2]⟩ 1
          (topiEdgeset [(0, 1), (1, 1)] i) = some 0 ∧
      coveredCalcEvictionCost (sampleCalculation [(0, 1), (1, 1)]).toPlacementView ⟨[2]⟩ 1
          (topiEdgeset [(0, 1), (1, 1)] i) = some 0) ∧
    (sampleCalculation [(0, 1), (1, 1)]).topiBenefit ⟨[2]⟩ [(0, 1), (1, 1)] 2 = 5 ∧
    (sampleCalculation [(0, 1), (1, 1)]).admissionBenefitP2P ⟨[2]⟩ [(0, 1), (1, 1)] 2 =
      some (5 / 2) ∧
    (sampleCalculation [(0, 1), (1, 1)]).choosePlacement ⟨[2]⟩ 2 false = some (some [0, 1]) ∧
    (sampleCalculation [(0, 1), (1, 1)]).choosePlacement ⟨[2]⟩ 2 true = some (some [0]) := by
  refine ⟨uniformCalculation_sample _, ?_, ?_, ?_, ?_, ?_⟩
  · decide +kernel
  · decide +kernel
  · decide +kernel
  · decide +kernel
  · decide +kernel

end CalculationView

end Covered.Simulator
