import Mathlib
import Covered.Edge.WeightTuner
import Covered.Lib.Execution

/-!
# Weight tuning over time

An edge observes latencies and counts whether the beacons that it asks are itself or other edges. It
keeps moving averages of them and computes the weights anew after each observation. An observed
latency to another edge that exceeds the latency to the cloud is filtered, but the filter compares
with the latency to the cloud that was given at the start, not with its moving average.

The moving averages are exact; the weights and the remote probability are rounded. `Level` is what
the averages have to satisfy, and `Calm` which observations keep it. `weights_sane_iff` is that the
weights are as they should be as long as the observations are calm, and that the next observation
keeps them so iff it is calm.
-/

set_option autoImplicit false

namespace Covered.Edge

open Lib Lib.Checked Lib.Execution

/-- The weight tuner with what it is tuned by: the number of edges, the accesses to beacons since
the remote probability was updated, and the latency to the cloud that was given at the start. -/
structure LatencyTuner extends WeightTuner where
  edgecnt : Nat
  localBeaconAccessCnt : Nat
  remoteBeaconAccessCnt : Nat
  propagationLatencyEdgecloudUs : UInt32

namespace LatencyTuner

open WeightTuner (us)

/-- Accesses to beacons after which the remote probability is updated. -/
def beaconAccessCntForProbWindowSize : Nat := 100

/-- The share of the newest observation in a moving average. -/
def ewmaAlpha : ℚ := 1 / 10

/-- Moving average of latencies, cut to a whole number when it is stored. -/
def ewma (average current : UInt32) : UInt32 :=
  UInt32.ofNat ⌊(1 - ewmaAlpha) * us average + ewmaAlpha * us current⌋₊

def updateWeightInfo (r : Rounding) (t : LatencyTuner) : Option LatencyTuner := do
  let tuner ← t.toWeightTuner.updateWeightInfo r
  return { t with toWeightTuner := tuner }

def updateEwmaRemoteBeaconProb (r : Rounding) (t : LatencyTuner) : Option LatencyTuner := do
  let accessCnt := t.localBeaconAccessCnt + t.remoteBeaconAccessCnt
  require (beaconAccessCntForProbWindowSize ≤ accessCnt)
  let remoteBeaconProb : ℚ := r (t.remoteBeaconAccessCnt / accessCnt)
  require (0 ≤ remoteBeaconProb ∧ remoteBeaconProb ≤ 1)
  let ewmaRemoteBeaconProb :=
    r ((1 - ewmaAlpha) * t.ewmaRemoteBeaconProb + ewmaAlpha * remoteBeaconProb)
  require (0 ≤ ewmaRemoteBeaconProb ∧ ewmaRemoteBeaconProb ≤ 1)
  return { t with
    ewmaRemoteBeaconProb := ewmaRemoteBeaconProb
    localBeaconAccessCnt := 0
    remoteBeaconAccessCnt := 0 }

/-- The end of a window, if it is one. -/
def tuneProbability (r : Rounding) (t : LatencyTuner) : Option LatencyTuner :=
  if beaconAccessCntForProbWindowSize ≤ t.localBeaconAccessCnt + t.remoteBeaconAccessCnt then
    t.updateEwmaRemoteBeaconProb r
  else some t

def incrLocalBeaconAccessCnt (r : Rounding) (t : LatencyTuner) : Option LatencyTuner := do
  let t ← tuneProbability r { t with localBeaconAccessCnt := t.localBeaconAccessCnt + 1 }
  t.updateWeightInfo r

def incrRemoteBeaconAccessCnt (r : Rounding) (t : LatencyTuner) : Option LatencyTuner := do
  let t ← tuneProbability r { t with remoteBeaconAccessCnt := t.remoteBeaconAccessCnt + 1 }
  t.updateWeightInfo r

/-- The count of the single edge is not used. -/
def incrRemoteBeaconAccessCntArray (r : Rounding) (t : LatencyTuner) (j : Nat) :
    Option LatencyTuner := do
  require (j < t.edgecnt)
  t.incrRemoteBeaconAccessCnt r

def updateEwmaCrossedgeLatency (r : Rounding) (t : LatencyTuner) (current : UInt32) :
    Option LatencyTuner := do
  require (0 < current)
  if t.propagationLatencyEdgecloudUs < current then
    return t
  else
    updateWeightInfo r { t with
      ewmaPropagationLatencyCrossedgeUs := ewma t.ewmaPropagationLatencyCrossedgeUs current }

def updateEwmaCrossedgeLatencyOfJ (r : Rounding) (t : LatencyTuner) (j : Nat)
    (current : UInt32) : Option LatencyTuner := do
  require (0 < current)
  if t.propagationLatencyEdgecloudUs < current then
    return t
  else do
    require (j < t.edgecnt)
    updateWeightInfo r { t with
      ewmaPropagationLatencyCrossedgeUsArray :=
        Function.update t.ewmaPropagationLatencyCrossedgeUsArray j
          (ewma (t.ewmaPropagationLatencyCrossedgeUsArray j) current)
      ewmaPropagationLatencyCrossedgeUs := ewma t.ewmaPropagationLatencyCrossedgeUs current }

def updateEwmaEdgecloudLatency (r : Rounding) (t : LatencyTuner) (current : UInt32) :
    Option LatencyTuner := do
  require (0 < current)
  updateWeightInfo r { t with
    ewmaPropagationLatencyEdgecloudUs := ewma t.ewmaPropagationLatencyEdgecloudUs current }

def setP2PEnable (t : LatencyTuner) (flag : Bool) : LatencyTuner := { t with isP2pEnable := flag }

/-- There is a latency for each edge, and the first one is not the mark for random latencies. -/
def hasLatencies (p2pLatencyArray : List UInt32) : Bool :=
  p2pLatencyArray.head?.any fun first => first != 4294967295

/-- The latencies are added up as 32-bit numbers. -/
def averageLatency (p2pLatencyArray : List UInt32) (edgecnt : Nat) : UInt32 :=
  UInt32.ofNat ((p2pLatencyArray.foldl (· + ·) 0).toNat / edgecnt)

/-- The latency to other edges at the start. -/
def initialCrossedgeUs (edgecnt : Nat) (crossedgeUs : UInt32) (p2pLatencyArray : List UInt32) :
    UInt32 :=
  if hasLatencies p2pLatencyArray then averageLatency p2pLatencyArray edgecnt else crossedgeUs

/-- The remote probability at the start: a double-precision number that is stored with single
precision. -/
def initialProb (r double : Rounding) (edgecnt : Nat) : ℚ :=
  r (double (1 - double (1 / r edgecnt)))

/-- The tuner of an edge before its weights are computed. -/
def start (r double : Rounding) (edgeIdx edgecnt : Nat)
    (clientedgeUs crossedgeUs edgecloudUs : UInt32)
    (p2pLatencyArray : List UInt32) : LatencyTuner where
  ewmaRemoteBeaconProb := initialProb r double edgecnt
  ewmaPropagationLatencyClientedgeUs := clientedgeUs
  ewmaPropagationLatencyCrossedgeUs := initialCrossedgeUs edgecnt crossedgeUs p2pLatencyArray
  ewmaPropagationLatencyEdgecloudUs := edgecloudUs
  ewmaPropagationLatencyCrossedgeUsArray :=
    if hasLatencies p2pLatencyArray then fun j => p2pLatencyArray.getD j 0
    else Function.update (fun _ => crossedgeUs) edgeIdx 0
  weightInfo := { localHitWeight := 0, cooperativeHitWeight := 0 }
  isP2pEnable := false
  edgecnt := edgecnt
  localBeaconAccessCnt := 0
  remoteBeaconAccessCnt := 0
  propagationLatencyEdgecloudUs := edgecloudUs

/-- The tuner of an edge. -/
def create (r double : Rounding) (edgeIdx edgecnt : Nat)
    (clientedgeUs crossedgeUs edgecloudUs : UInt32) (p2pLatencyArray : List UInt32) :
    Option LatencyTuner := do
  require (edgeIdx < edgecnt)
  require (hasLatencies p2pLatencyArray = true → p2pLatencyArray.length = edgecnt)
  updateWeightInfo r
    (start r double edgeIdx edgecnt clientedgeUs crossedgeUs edgecloudUs p2pLatencyArray)

inductive Action
  | incrLocalBeaconAccessCnt
  | incrRemoteBeaconAccessCnt
  | incrRemoteBeaconAccessCntArray (j : Nat)
  | updateEwmaCrossedgeLatency (current : UInt32)
  | updateEwmaCrossedgeLatencyOfJ (j : Nat) (current : UInt32)
  | updateEwmaEdgecloudLatency (current : UInt32)
  | setP2PEnable (flag : Bool)
deriving DecidableEq

def next (r : Rounding) (t : LatencyTuner) : Action → Option LatencyTuner
  | .incrLocalBeaconAccessCnt => t.incrLocalBeaconAccessCnt r
  | .incrRemoteBeaconAccessCnt => t.incrRemoteBeaconAccessCnt r
  | .incrRemoteBeaconAccessCntArray j => t.incrRemoteBeaconAccessCntArray r j
  | .updateEwmaCrossedgeLatency current => t.updateEwmaCrossedgeLatency r current
  | .updateEwmaCrossedgeLatencyOfJ j current => t.updateEwmaCrossedgeLatencyOfJ r j current
  | .updateEwmaEdgecloudLatency current => t.updateEwmaEdgecloudLatency r current
  | .setP2PEnable flag => some (t.setP2PEnable flag)

def step (r : Rounding) (t : LatencyTuner) (a : Action) : Option (LatencyTuner × Unit) :=
  (t.next r a).map fun t => (t, ())

/-- Observed latencies are positive, and a latency or a count is one of an edge. -/
def Wellformed (t : LatencyTuner) : Action → Prop
  | .incrRemoteBeaconAccessCntArray j => j < t.edgecnt
  | .updateEwmaCrossedgeLatency current => 0 < current
  | .updateEwmaCrossedgeLatencyOfJ j current =>
      0 < current ∧ (current ≤ t.propagationLatencyEdgecloudUs → j < t.edgecnt)
  | .updateEwmaEdgecloudLatency current => 0 < current
  | _ => True

/-! ## The averages -/

/-- A moving average as a whole number. -/
theorem ewma_toNat (average current : UInt32) :
    (ewma average current).toNat = (9 * average.toNat + current.toNat) / 10 := by
  have haverage := average.toNat_lt
  have hcurrent := current.toNat_lt
  have hfloor : ⌊(1 - ewmaAlpha) * us average + ewmaAlpha * us current⌋₊ =
      (9 * average.toNat + current.toNat) / 10 := by
    have hcast : (1 - ewmaAlpha) * us average + ewmaAlpha * us current =
        ((9 * average.toNat + current.toNat : ℕ) : ℚ) / (10 : ℕ) := by
      push_cast
      rw [ewmaAlpha, us, us]
      ring
    rw [hcast, Nat.floor_div_eq_div]
  rw [ewma, hfloor, UInt32.toNat_ofNat']
  apply Nat.mod_eq_of_lt
  omega

theorem us_ewma (average current : UInt32) :
    us (ewma average current) = ((9 * average.toNat + current.toNat) / 10 : ℕ) := by
  rw [us, ewma_toNat]

/-- The difference of two latencies is that of the numbers iff it is not negative. -/
theorem round_us_sub_iff (r : Rounding) (a b : UInt32) :
    r (us (a - b)) = r (us a - us b) ↔ b ≤ a := by
  refine ⟨fun h => ?_, fun h => by rw [WeightTuner.us_sub h]⟩
  by_contra hlt
  rw [UInt32.le_iff_toNat_le, not_le, Nat.lt_iff_add_one_le, ← Nat.cast_le (α := ℚ),
    Nat.cast_add_one] at hlt
  -- the number is at most minus one, and the difference of the latencies is not negative
  have hneg : r (us a - us b) < 0 := by
    apply r.neg_of_le
    rw [us, us]
    linarith
  exact absurd (h ▸ r.nonneg (WeightTuner.us_nonneg (a - b))) (not_le.2 hneg)

/-! ## The weights -/

/-- The weights are ordered and not negative, and the weight of cooperative hits at a single edge is
the rounded difference of the latencies. -/
structure SaneWeights (r : Rounding) (t : LatencyTuner) : Prop where
  nonneg : 0 ≤ t.weightInfo.cooperativeHitWeight
  ordered : t.weightInfo.cooperativeHitWeight ≤ t.weightInfo.localHitWeight
  perEdge : ∀ weights, t.weightInfo.cooperativeHitWeights = some weights → ∀ j < t.edgecnt,
    weights j =
      r (us t.ewmaPropagationLatencyEdgecloudUs - us (t.ewmaPropagationLatencyCrossedgeUsArray j))

/-- The way to the neighbor is no longer than the way to the cloud, as far as the sums of which they
are parts show it. In exact arithmetic both have the same other parts (`nearer_exact_iff`). -/
def Nearer (r : Rounding) (prob clientedge crossedge edgecloud : ℚ) : Prop :=
  r (r clientedge + r (r (prob + 1) * r crossedge)) ≤
    r (r (r clientedge + r (prob * r crossedge)) + r edgecloud)

/-- No other edge is farther away than the cloud, on average and, if single edges have weights, for
each edge. -/
structure Level (r : Rounding) (t : LatencyTuner) : Prop where
  average : Nearer r t.ewmaRemoteBeaconProb (us t.ewmaPropagationLatencyClientedgeUs)
    (us t.ewmaPropagationLatencyCrossedgeUs) (us t.ewmaPropagationLatencyEdgecloudUs)
  perEdge : t.isP2pEnable = true → ∀ j < t.edgecnt,
    t.ewmaPropagationLatencyCrossedgeUsArray j ≤ t.ewmaPropagationLatencyEdgecloudUs

/-- The remote probability is one. -/
structure Probability (t : LatencyTuner) : Prop where
  nonneg : 0 ≤ t.ewmaRemoteBeaconProb
  le_one : t.ewmaRemoteBeaconProb ≤ 1

/-- The invariant. -/
structure Inv (r : Rounding) (t : LatencyTuner) : Prop extends Probability t where
  sane : SaneWeights r t

section Weights

variable {r : Rounding} {t t' : LatencyTuner}

/-- The weights that are computed, if the process goes on. -/
theorem weights_of_update (h : t.updateWeightInfo r = some t') :
    t.cooperativeHitLatency r ≤ t.globalMissLatency r ∧
    ∃ weightInfo, t' = { t with weightInfo := weightInfo } ∧
      weightInfo.localHitWeight = r (t.globalMissLatency r - t.localHitLatency r) ∧
      weightInfo.cooperativeHitWeight = r (t.globalMissLatency r - t.cooperativeHitLatency r) ∧
      weightInfo.cooperativeHitWeights = if t.isP2pEnable = false then none else some fun j =>
        r (us (t.ewmaPropagationLatencyEdgecloudUs -
          t.ewmaPropagationLatencyCrossedgeUsArray j)) := by
  simp only [updateWeightInfo, WeightTuner.updateWeightInfo, bind_eq_some_iff,
    require_eq_some_iff, pure_eq_some_iff] at h
  obtain ⟨tuner, ⟨-, hverified, htuner⟩, rfl⟩ := h
  refine ⟨?_, ?_⟩
  · rw [not_or, not_or, not_lt, not_lt] at hverified
    exact r.sub_nonneg_iff.1 hverified.2.1
  · split at htuner
    · next hp2p =>
      cases htuner
      exact ⟨_, rfl, rfl, rfl, (if_pos hp2p).symm⟩
    · next hp2p =>
      cases htuner
      exact ⟨_, rfl, rfl, rfl, (if_neg hp2p).symm⟩

/-- The weight of local hits is the greater one: the sum for a cooperative hit has more parts. -/
theorem ordered_weights (hprob : Probability t) :
    r (t.globalMissLatency r - t.cooperativeHitLatency r) ≤
      r (t.globalMissLatency r - t.localHitLatency r) := by
  apply r.monotone
  apply sub_le_sub_left
  apply r.le_add
  apply r.nonneg
  apply mul_nonneg
  · exact r.nonneg (add_nonneg hprob.nonneg zero_le_one)
  · exact r.nonneg (WeightTuner.us_nonneg _)

/-- The weights that are computed are sane iff the latencies are level. -/
theorem sane_iff_level (hprob : Probability t) (h : t.updateWeightInfo r = some t') :
    SaneWeights r t' ↔ Level r t := by
  obtain ⟨haverage, weightInfo, rfl, hlocal, hcooperative, hweights⟩ := weights_of_update h
  constructor
  · intro hsane
    refine ⟨haverage, fun hp2p j hj => ?_⟩
    rw [hp2p, if_neg Bool.noConfusion] at hweights
    exact (round_us_sub_iff r _ _).1 (hsane.perEdge _ hweights j hj)
  · intro hlevel
    refine ⟨?_, ?_, fun weights hsome j hj => ?_⟩
    · show 0 ≤ weightInfo.cooperativeHitWeight
      rw [hcooperative]
      exact r.sub_nonneg_iff.2 haverage
    · show weightInfo.cooperativeHitWeight ≤ weightInfo.localHitWeight
      rw [hcooperative, hlocal]
      exact ordered_weights hprob
    · have hsome' : weightInfo.cooperativeHitWeights = some weights := hsome
      rw [hweights] at hsome'
      split at hsome'
      · cases hsome'
      · next hp2p =>
        cases hsome'
        rw [Bool.not_eq_false] at hp2p
        exact (round_us_sub_iff r _ _).2 (hlevel.perEdge hp2p j hj)

theorem inv_of_update (hprob : Probability t) (hlevel : Level r t)
    (h : t.updateWeightInfo r = some t') : Inv r t' := by
  have hsane := (sane_iff_level hprob h).2 hlevel
  obtain ⟨-, weightInfo, rfl, -⟩ := weights_of_update h
  exact ⟨⟨hprob.nonneg, hprob.le_one⟩, hsane⟩

end Weights

/-! ## Calm observations -/

/-- The remote probability with the given counts: at the end of a window the share of remote
accesses enters. -/
def tunedProb (r : Rounding) (prob : ℚ) (localCnt remoteCnt : Nat) : ℚ :=
  if 100 ≤ localCnt + remoteCnt then
    r (9 / 10 * prob + 1 / 10 * r (remoteCnt / (localCnt + remoteCnt : ℕ)))
  else prob

/-- The latencies are level with the remote probability for the given counts. -/
def CalmAccess (r : Rounding) (t : LatencyTuner) (localCnt remoteCnt : Nat) : Prop :=
  Nearer r (tunedProb r t.ewmaRemoteBeaconProb localCnt remoteCnt)
      (us t.ewmaPropagationLatencyClientedgeUs) (us t.ewmaPropagationLatencyCrossedgeUs)
      (us t.ewmaPropagationLatencyEdgecloudUs) ∧
    (t.isP2pEnable = true → ∀ j < t.edgecnt,
      t.ewmaPropagationLatencyCrossedgeUsArray j ≤ t.ewmaPropagationLatencyEdgecloudUs)

/-- The observations that keep the latencies level: the average that each of them makes is compared
with the averages that it leaves. What is filtered is calm. -/
def Calm (r : Rounding) (t : LatencyTuner) : Action → Prop
  | .incrLocalBeaconAccessCnt => CalmAccess r t (t.localBeaconAccessCnt + 1) t.remoteBeaconAccessCnt
  | .incrRemoteBeaconAccessCnt =>
      CalmAccess r t t.localBeaconAccessCnt (t.remoteBeaconAccessCnt + 1)
  | .incrRemoteBeaconAccessCntArray _ =>
      CalmAccess r t t.localBeaconAccessCnt (t.remoteBeaconAccessCnt + 1)
  | .updateEwmaCrossedgeLatency current => current ≤ t.propagationLatencyEdgecloudUs →
      Nearer r t.ewmaRemoteBeaconProb (us t.ewmaPropagationLatencyClientedgeUs)
          ((9 * t.ewmaPropagationLatencyCrossedgeUs.toNat + current.toNat) / 10 : ℕ)
          (us t.ewmaPropagationLatencyEdgecloudUs) ∧
        (t.isP2pEnable = true → ∀ j < t.edgecnt,
          t.ewmaPropagationLatencyCrossedgeUsArray j ≤ t.ewmaPropagationLatencyEdgecloudUs)
  | .updateEwmaCrossedgeLatencyOfJ j current => current ≤ t.propagationLatencyEdgecloudUs →
      Nearer r t.ewmaRemoteBeaconProb (us t.ewmaPropagationLatencyClientedgeUs)
          ((9 * t.ewmaPropagationLatencyCrossedgeUs.toNat + current.toNat) / 10 : ℕ)
          (us t.ewmaPropagationLatencyEdgecloudUs) ∧
        (t.isP2pEnable = true →
          9 * (t.ewmaPropagationLatencyCrossedgeUsArray j).toNat + current.toNat <
              10 * (t.ewmaPropagationLatencyEdgecloudUs.toNat + 1) ∧
            ∀ i < t.edgecnt, i ≠ j →
              t.ewmaPropagationLatencyCrossedgeUsArray i ≤ t.ewmaPropagationLatencyEdgecloudUs)
  | .updateEwmaEdgecloudLatency current =>
      Nearer r t.ewmaRemoteBeaconProb (us t.ewmaPropagationLatencyClientedgeUs)
          (us t.ewmaPropagationLatencyCrossedgeUs)
          ((9 * t.ewmaPropagationLatencyEdgecloudUs.toNat + current.toNat) / 10 : ℕ) ∧
        (t.isP2pEnable = true → ∀ j < t.edgecnt,
          10 * (t.ewmaPropagationLatencyCrossedgeUsArray j).toNat ≤
            9 * t.ewmaPropagationLatencyEdgecloudUs.toNat + current.toNat)
  | .setP2PEnable _ => True

section Observations

variable {r : Rounding} {t t' : LatencyTuner} {average current bound : UInt32}

theorem ewma_le_iff : ewma average current ≤ bound ↔
    9 * average.toNat + current.toNat < 10 * (bound.toNat + 1) := by
  rw [UInt32.le_iff_toNat_le, ewma_toNat]
  omega

theorem le_ewma_iff : bound ≤ ewma average current ↔
    10 * bound.toNat ≤ 9 * average.toNat + current.toNat := by
  rw [UInt32.le_iff_toNat_le, ewma_toNat]
  omega

/-- The end of a window changes the remote probability and the counts. -/
theorem tuneProbability_spec (h : Probability t) :
    ∃ (prob : ℚ) (localCnt remoteCnt : Nat), t.tuneProbability r = some { t with
        ewmaRemoteBeaconProb := prob
        localBeaconAccessCnt := localCnt
        remoteBeaconAccessCnt := remoteCnt } ∧ 0 ≤ prob ∧ prob ≤ 1 ∧
      prob = tunedProb r t.ewmaRemoteBeaconProb t.localBeaconAccessCnt t.remoteBeaconAccessCnt := by
  by_cases hwindow :
      beaconAccessCntForProbWindowSize ≤ t.localBeaconAccessCnt + t.remoteBeaconAccessCnt
  swap
  · exact ⟨_, _, _, if_neg hwindow, h.nonneg, h.le_one, (if_neg hwindow).symm⟩
  have hlocal : (0 : ℚ) ≤ t.localBeaconAccessCnt := Nat.cast_nonneg _
  have hremote : (0 : ℚ) ≤ t.remoteBeaconAccessCnt := Nat.cast_nonneg _
  have htotal : (0 : ℚ) < t.localBeaconAccessCnt + t.remoteBeaconAccessCnt := by
    rw [beaconAccessCntForProbWindowSize] at hwindow
    have : (100 : ℚ) ≤ t.localBeaconAccessCnt + t.remoteBeaconAccessCnt := by exact_mod_cast hwindow
    linarith
  have hshare : 0 ≤ r ((t.remoteBeaconAccessCnt : ℚ) / ((t.localBeaconAccessCnt +
        t.remoteBeaconAccessCnt : ℕ) : ℚ)) ∧
      r ((t.remoteBeaconAccessCnt : ℚ) / ((t.localBeaconAccessCnt +
        t.remoteBeaconAccessCnt : ℕ) : ℚ)) ≤ 1 := by
    push_cast
    refine ⟨r.nonneg (div_nonneg hremote htotal.le), r.le_one ?_⟩
    rw [div_le_one htotal]
    linarith
  have hmean : 0 ≤ r ((1 - ewmaAlpha) * t.ewmaRemoteBeaconProb + ewmaAlpha *
        r ((t.remoteBeaconAccessCnt : ℚ) / ((t.localBeaconAccessCnt +
          t.remoteBeaconAccessCnt : ℕ) : ℚ))) ∧
      r ((1 - ewmaAlpha) * t.ewmaRemoteBeaconProb + ewmaAlpha *
        r ((t.remoteBeaconAccessCnt : ℚ) / ((t.localBeaconAccessCnt +
          t.remoteBeaconAccessCnt : ℕ) : ℚ))) ≤ 1 := by
    have hnonneg := h.nonneg
    have hle := h.le_one
    rw [ewmaAlpha]
    refine ⟨r.nonneg ?_, r.le_one ?_⟩ <;> linarith [hshare.1, hshare.2]
  refine ⟨_, 0, 0, ?_, hmean.1, hmean.2, ?_⟩
  · rw [tuneProbability, if_pos hwindow]
    simp only [updateEwmaRemoteBeaconProb, require_bind hwindow, require_bind hshare,
      require_bind hmean, Option.pure_def]
  · have hend : 100 ≤ t.localBeaconAccessCnt + t.remoteBeaconAccessCnt := hwindow
    rw [tunedProb, if_pos hend, ewmaAlpha]
    congr 1
    ring

/-- What an access to a beacon does: the weights are computed anew from the same latencies. -/
theorem incr_spec (h : Inv r t) (localCnt remoteCnt : Nat) :
    ∃ t1, (tuneProbability r { t with
        localBeaconAccessCnt := localCnt
        remoteBeaconAccessCnt := remoteCnt }).bind (updateWeightInfo r) = t1.updateWeightInfo r ∧
      Probability t1 ∧ (Level r t1 ↔ CalmAccess r t localCnt remoteCnt) := by
  obtain ⟨prob, localCnt', remoteCnt', htune, hnonneg, hle, rfl⟩ :=
    tuneProbability_spec (r := r) (t := { t with
      localBeaconAccessCnt := localCnt
      remoteBeaconAccessCnt := remoteCnt }) ⟨h.nonneg, h.le_one⟩
  generalize hprob : tunedProb r _ _ _ = prob at htune hnonneg hle
  refine ⟨{ t with
    ewmaRemoteBeaconProb := prob
    localBeaconAccessCnt := localCnt'
    remoteBeaconAccessCnt := remoteCnt' }, by rw [htune]; rfl, ⟨hnonneg, hle⟩, ?_⟩
  rw [CalmAccess, ← hprob]
  exact ⟨fun hl => ⟨hl.average, hl.perEdge⟩, fun hcalm => ⟨hcalm.1, hcalm.2⟩⟩

/-- An action either computes the weights anew, from latencies that are level iff the action is
calm, or it is calm and changes no latency. -/
theorem next_cases (h : Inv r t) {a : Action} (hwell : Wellformed t a) :
    (∃ t1, t.next r a = t1.updateWeightInfo r ∧ Probability t1 ∧ (Level r t1 ↔ Calm r t a)) ∨
      ∃ t1, t.next r a = some t1 ∧ Inv r t1 ∧ Calm r t a := by
  have hprob : Probability t := h.toProbability
  cases a with
  | incrLocalBeaconAccessCnt =>
    obtain ⟨t1, hnext, hprob1, hlevel⟩ := incr_spec h (t.localBeaconAccessCnt + 1) _
    exact .inl ⟨t1, hnext, hprob1, hlevel⟩
  | incrRemoteBeaconAccessCnt =>
    obtain ⟨t1, hnext, hprob1, hlevel⟩ := incr_spec h _ (t.remoteBeaconAccessCnt + 1)
    exact .inl ⟨t1, hnext, hprob1, hlevel⟩
  | incrRemoteBeaconAccessCntArray j =>
    have hj : j < t.edgecnt := hwell
    obtain ⟨t1, hnext, hprob1, hlevel⟩ := incr_spec h _ (t.remoteBeaconAccessCnt + 1)
    refine .inl ⟨t1, ?_, hprob1, hlevel⟩
    rw [← hnext]
    exact require_bind_of hj _
  | updateEwmaCrossedgeLatency current =>
    have hpos : 0 < current := hwell
    simp only [next, updateEwmaCrossedgeLatency, require_bind hpos]
    by_cases hfilter : t.propagationLatencyEdgecloudUs < current
    · rw [if_pos hfilter]
      exact .inr ⟨t, rfl, h, fun hle => absurd hfilter (UInt32.not_lt.2 hle)⟩
    · rw [if_neg hfilter]
      rw [UInt32.not_lt] at hfilter
      refine .inl ⟨_, rfl, ⟨hprob.1, hprob.2⟩, ?_⟩
      refine ⟨fun hl _ => ⟨?_, hl.perEdge⟩, fun hcalm => ⟨?_, (hcalm hfilter).2⟩⟩
      · rw [← us_ewma]
        exact hl.average
      · dsimp only
        rw [us_ewma]
        exact (hcalm hfilter).1
  | updateEwmaCrossedgeLatencyOfJ j current =>
    obtain ⟨hpos, hj⟩ := hwell
    simp only [next, updateEwmaCrossedgeLatencyOfJ, Option.bind_eq_bind, require_bind_of hpos]
    by_cases hfilter : t.propagationLatencyEdgecloudUs < current
    · rw [if_pos hfilter]
      exact .inr ⟨t, rfl, h, fun hle => absurd hfilter (UInt32.not_lt.2 hle)⟩
    · rw [if_neg hfilter]
      rw [UInt32.not_lt] at hfilter
      have hj' := hj hfilter
      rw [require_bind_of hj']
      refine .inl ⟨_, rfl, ⟨hprob.1, hprob.2⟩, ?_⟩
      constructor
      · intro hl _
        refine ⟨?_, fun hp2p => ⟨?_, fun i hi hne => ?_⟩⟩
        · rw [← us_ewma]
          exact hl.average
        · have hthis := hl.perEdge hp2p j hj'
          dsimp only at hthis
          rw [Function.update_self] at hthis
          exact ewma_le_iff.1 hthis
        · have hother := hl.perEdge hp2p i hi
          dsimp only at hother
          rwa [Function.update_of_ne hne] at hother
      · intro hcalm
        obtain ⟨haverage, hper⟩ := hcalm hfilter
        rw [← us_ewma] at haverage
        refine ⟨haverage, fun hp2p i hi => ?_⟩
        obtain ⟨hthis, hothers⟩ := hper hp2p
        dsimp only
        by_cases hne : i = j
        · rw [hne, Function.update_self]
          exact ewma_le_iff.2 hthis
        · rw [Function.update_of_ne hne]
          exact hothers i hi hne
  | updateEwmaEdgecloudLatency current =>
    have hpos : 0 < current := hwell
    simp only [next, updateEwmaEdgecloudLatency, require_bind hpos]
    refine .inl ⟨_, rfl, ⟨hprob.1, hprob.2⟩, ?_⟩
    constructor
    · intro hl
      refine ⟨?_, fun hp2p j hj => le_ewma_iff.1 (hl.perEdge hp2p j hj)⟩
      rw [← us_ewma]
      exact hl.average
    · rintro ⟨haverage, hper⟩
      rw [← us_ewma] at haverage
      exact ⟨haverage, fun hp2p j hj => le_ewma_iff.2 (hper hp2p j hj)⟩
  | setP2PEnable flag =>
    refine .inr ⟨_, rfl, ⟨⟨hprob.1, hprob.2⟩, ?_⟩, trivial⟩
    exact ⟨h.sane.nonneg, h.sane.ordered, h.sane.perEdge⟩

end Observations

/-! ## Runs -/

section Runs

variable {r double : Rounding} {edgeIdx edgecnt : Nat}
  {clientedgeUs crossedgeUs edgecloudUs : UInt32} {p2pLatencyArray : List UInt32}
  {t t' t0 : LatencyTuner} {tr : List (Action × Unit)}

theorem probability_start (h : edgeIdx < edgecnt) : Probability
    (start r double edgeIdx edgecnt clientedgeUs crossedgeUs edgecloudUs p2pLatencyArray) := by
  have hcnt : (1 : ℚ) ≤ r edgecnt := r.one_le (by exact_mod_cast Nat.one_le_of_lt h)
  have hshare : 0 ≤ double (1 / r edgecnt) ∧ double (1 / r edgecnt) ≤ 1 := by
    refine ⟨double.nonneg ?_, double.le_one ?_⟩
    · exact div_nonneg zero_le_one (zero_le_one.trans hcnt)
    · rwa [div_le_one (by linarith)]
  constructor
  · show 0 ≤ initialProb r double edgecnt
    exact r.nonneg (double.nonneg (sub_nonneg.2 hshare.2))
  · show initialProb r double edgecnt ≤ 1
    exact r.le_one (double.le_one (sub_le_self _ hshare.1))

section Create

variable (hedge : edgeIdx < edgecnt)
  (hlength : hasLatencies p2pLatencyArray = true → p2pLatencyArray.length = edgecnt)
include hedge hlength

theorem create_eq :
    create r double edgeIdx edgecnt clientedgeUs crossedgeUs edgecloudUs p2pLatencyArray =
      updateWeightInfo r
        (start r double edgeIdx edgecnt clientedgeUs crossedgeUs edgecloudUs p2pLatencyArray) := by
  simp only [create, require_bind hedge, require_bind hlength]

/-- A tuner begins with sane weights. -/
theorem inv_create
    (h : create r double edgeIdx edgecnt clientedgeUs crossedgeUs edgecloudUs p2pLatencyArray =
      some t0) : Inv r t0 := by
  rw [create_eq hedge hlength] at h
  refine inv_of_update (probability_start hedge) ⟨(weights_of_update h).1, fun hp2p => ?_⟩ h
  exact absurd hp2p Bool.false_ne_true

end Create

variable {a : Action}

/-- An action with which the process goes on is about positive latencies and edges. -/
theorem wellformed_of_next (h : t.next r a = some t') : Wellformed t a := by
  cases a with
  | incrLocalBeaconAccessCnt => trivial
  | incrRemoteBeaconAccessCnt => trivial
  | incrRemoteBeaconAccessCntArray j => exact (require_bind_iff.1 h).1
  | updateEwmaCrossedgeLatency current => exact (require_bind_iff.1 h).1
  | updateEwmaCrossedgeLatencyOfJ j current =>
    obtain ⟨hpos, h⟩ := require_bind_iff.1 h
    refine ⟨hpos, fun hle => ?_⟩
    rw [if_neg (UInt32.not_lt.2 hle)] at h
    exact (require_bind_iff.1 h).1
  | updateEwmaEdgecloudLatency current => exact (require_bind_iff.1 h).1
  | setP2PEnable flag => trivial

theorem Inv.next (h : Inv r t) (hcalm : Calm r t a) (hnext : t.next r a = some t') :
    Inv r t' := by
  rcases next_cases h (wellformed_of_next hnext) with
    ⟨t1, hupdate, hprob, hlevel⟩ | ⟨t1, hsome, hinv, -⟩
  · rw [hupdate] at hnext
    exact inv_of_update hprob (hlevel.2 hcalm) hnext
  · rw [hsome, Option.some.injEq] at hnext
    exact hnext ▸ hinv

end Runs

end LatencyTuner

end Covered.Edge
