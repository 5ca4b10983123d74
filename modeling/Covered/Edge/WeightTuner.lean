import Mathlib.Tactic.Linarith
import Mathlib.Tactic.Ring
import Covered.Cache.KeyLevelMetadata

/-!
# Weight tuner

The weight tuner of an edge turns latencies into the weights of hits: a local hit saves the way to
the cloud and, with the probability that the beacon of a key is another edge, the way to the beacon;
a cooperative hit saves the way to the cloud but not the way to the neighbor. In the peer-to-peer
mode there is a weight for each edge, from the latency to that edge.

Latencies are unsigned 32-bit numbers, which become single-precision numbers in a sum; every
operation on these is rounded. The latencies and the weights of the single edges are functions of
the edge index; the vectors of weights are empty before the first update in the peer-to-peer mode.
-/

set_option autoImplicit false

namespace Covered.Edge

open Lib Lib.Checked

/-- The weights of the edge as a whole and those of the single edges, if there are any. -/
structure WeightInfo extends Cache.WeightInfo where
  localHitWeights : Option (Nat → ℚ) := none
  cooperativeHitWeights : Option (Nat → ℚ) := none

/-- What an edge knows about latencies, and the weights that follow. -/
structure WeightTuner where
  ewmaRemoteBeaconProb : ℚ
  ewmaPropagationLatencyClientedgeUs : UInt32
  ewmaPropagationLatencyCrossedgeUs : UInt32
  ewmaPropagationLatencyEdgecloudUs : UInt32
  ewmaPropagationLatencyCrossedgeUsArray : Nat → UInt32
  weightInfo : WeightInfo
  isP2pEnable : Bool

namespace WeightTuner

/-- A latency as a number. -/
def us (latency : UInt32) : ℚ := latency.toNat

/-- Latency of a hit at the edge itself. -/
def localHitLatency (r : Rounding) (t : WeightTuner) : ℚ :=
  r (us t.ewmaPropagationLatencyClientedgeUs)

/-- Latency of a hit at a neighbor, which the beacon finds. -/
def cooperativeHitLatency (r : Rounding) (t : WeightTuner) : ℚ :=
  r (r (us t.ewmaPropagationLatencyClientedgeUs) +
    r (r (t.ewmaRemoteBeaconProb + 1) * r (us t.ewmaPropagationLatencyCrossedgeUs)))

/-- Latency of a request that the cloud answers. -/
def globalMissLatency (r : Rounding) (t : WeightTuner) : ℚ :=
  r (r (r (us t.ewmaPropagationLatencyClientedgeUs) +
      r (t.ewmaRemoteBeaconProb * r (us t.ewmaPropagationLatencyCrossedgeUs))) +
    r (us t.ewmaPropagationLatencyEdgecloudUs))

/-- Latencies into weights. A negative weight, or a weight of cooperative hits above the one of
local hits, ends the process. -/
def updateWeightInfo (r : Rounding) (t : WeightTuner) : Option WeightTuner := do
  let localHitWeight := r (t.globalMissLatency r - t.localHitLatency r)
  let cooperativeHitWeight := r (t.globalMissLatency r - t.cooperativeHitLatency r)
  require (¬ (localHitWeight < 0 ∨ cooperativeHitWeight < 0 ∨
    localHitWeight < cooperativeHitWeight))
  if t.isP2pEnable = false then
    return { t with
      weightInfo := {
        localHitWeight := localHitWeight
        cooperativeHitWeight := cooperativeHitWeight } }
  else
    return { t with
      weightInfo := {
        localHitWeight := localHitWeight
        cooperativeHitWeight := cooperativeHitWeight
        localHitWeights := some fun i =>
          r (r (t.ewmaRemoteBeaconProb * r (us (t.ewmaPropagationLatencyCrossedgeUsArray i))) +
            r (us t.ewmaPropagationLatencyEdgecloudUs))
        cooperativeHitWeights := some fun j =>
          r (us (t.ewmaPropagationLatencyEdgecloudUs -
            t.ewmaPropagationLatencyCrossedgeUsArray j)) } }

/-- The weights are those of the current latencies, in exact arithmetic. -/
def UpToDate (t : WeightTuner) : Prop := t.updateWeightInfo .exact = some t

variable {t : WeightTuner}

theorem us_nonneg (latency : UInt32) : 0 ≤ us latency := Nat.cast_nonneg _

theorem us_sub {a b : UInt32} (h : b ≤ a) : us (a - b) = us a - us b := by
  rw [us, UInt32.toNat_sub_of_le _ _ h, Nat.cast_sub (UInt32.le_iff_toNat_le.1 h)]
  rfl

/-- The weights of a tuner that is up to date. -/
theorem UpToDate.weights (h : t.UpToDate) :
    t.weightInfo.localHitWeight = t.ewmaRemoteBeaconProb * us t.ewmaPropagationLatencyCrossedgeUs +
        us t.ewmaPropagationLatencyEdgecloudUs ∧
      t.weightInfo.cooperativeHitWeight =
        us t.ewmaPropagationLatencyEdgecloudUs - us t.ewmaPropagationLatencyCrossedgeUs ∧
      t.weightInfo.cooperativeHitWeight ≤ t.weightInfo.localHitWeight := by
  obtain ⟨hverified, h⟩ := require_bind_iff.1 h
  have key : t.weightInfo.toWeightInfo = ⟨t.globalMissLatency .exact - t.localHitLatency .exact,
      t.globalMissLatency .exact - t.cooperativeHitLatency .exact⟩ := by
    split at h
    · exact (congrArg (fun t => t.weightInfo.toWeightInfo) (Option.some.inj h)).symm
    · exact (congrArg (fun t => t.weightInfo.toWeightInfo) (Option.some.inj h)).symm
  rw [key]
  refine ⟨?_, ?_, ?_⟩
  · simp only [globalMissLatency, localHitLatency, Rounding.exact_apply]
    ring
  · simp only [globalMissLatency, cooperativeHitLatency, Rounding.exact_apply]
    ring
  · apply not_lt.1
    intro hlt
    exact hverified (Or.inr (Or.inr hlt))

/-- In the peer-to-peer mode each edge has its weight. -/
theorem UpToDate.localHitWeights (h : t.UpToDate) (hp2p : t.isP2pEnable = true) :
    t.weightInfo.localHitWeights = some fun i =>
      t.ewmaRemoteBeaconProb * us (t.ewmaPropagationLatencyCrossedgeUsArray i) +
        us t.ewmaPropagationLatencyEdgecloudUs := by
  obtain ⟨-, h⟩ := require_bind_iff.1 h
  rw [if_neg (ne_of_eq_of_ne hp2p Bool.false_ne_true.symm)] at h
  exact (congrArg (fun t => t.weightInfo.localHitWeights) (Option.some.inj h)).symm

end WeightTuner

end Covered.Edge
