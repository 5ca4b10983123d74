import Covered.Placement.VictimSelection
import Covered.Popularity.PopularityAggregator

/-!
# Placement calculation of the beacon

The beacon of a key tries the edges with the largest local uncached popularities: the first one, the
first two, and so on. For each choice it subtracts the eviction cost from the admission benefit, and
it keeps the first choice with the greatest gain, together with the victims that this choice would
evict. Where the tracked victims of an edge are too small it fetches more of them and calculates the
cost of the best choice once more. A placement is reported if the gain is positive.

`considerAll_spec` says that the loop keeps the first best choice with its own victims. After a
victim fetch the source hands out the synchronized victims of the new calculation, but not the
fetched ones: the assignment that is meant for them goes to the edges of the victim fetch.
`reports_iff` says when this makes no difference.

Benefits, costs and gains are rounded after each operation, and a cost depends on the order in which
the edges of a choice are gone through: both are parameters of the calculation (`Platform`). Victims
are fetched from other edges over the network; what comes back is the parameter
`ParallelFetchVictims`.
-/

set_option autoImplicit false

namespace Covered.Placement

open Cache (WeightInfo calcLocalUncachedReward)
open Common Cooperation Lib Lib.Checked Popularity Victim

/-! ## The calculation -/

/-- How the numbers of the machine are rounded, and the order in which a set of edges that were
inserted one after the other is gone through. -/
structure Platform where
  round : Rounding
  order : Edgeset → Edgeset
  perm : ∀ edges, (order edges).Perm edges

/-- The parts of the cache manager that a placement calculation reads. -/
structure CoveredCacheManager where
  popularityAggregator : PopularityAggregator
  victimTracker : VictimTracker

/-- The victims that the edges of a victim fetch send, with directory infos. -/
structure FetchedVictims where
  peredgeVictimCacheinfos : List (Nat × List VictimCacheinfo) := []
  perkeyVictimDirinfoset : List (Key × DirinfoSet) := []

/-- `parallelFetchVictims_`: what some edges send for an object size; nothing if the edge that asks
is not running any more. -/
abbrev ParallelFetchVictims := Nat → Finset Nat → Option FetchedVictims

/-- What is calculated for one choice of edges. -/
structure Candidate where
  admissionBenefit : DeltaReward
  placementEdgeset : Edgeset
  evictionCost : DeltaReward
  victims : PlacementVictims

/-- The admission benefit minus the eviction cost. -/
def Platform.placementGain (pf : Platform) (admissionBenefit evictionCost : DeltaReward) :
    DeltaReward :=
  pf.round (admissionBenefit - evictionCost)

def Candidate.placementGain (pf : Platform) (c : Candidate) : DeltaReward :=
  pf.placementGain c.admissionBenefit c.evictionCost

/-- The best choice so far. -/
structure BestPlacement where
  maxPlacementGain : DeltaReward := 0
  admissionBenefit : DeltaReward := 0
  edgeset : Edgeset := []
  peredgeSyncedVictimset : List (Nat × List Key) := []
  peredgeFetchedVictimset : List (Nat × List Key) := []
  victimFetchEdgeset : Finset Nat := ∅

/-- The best choice so far is this one. -/
def Candidate.toBest (pf : Platform) (c : Candidate) : BestPlacement where
  maxPlacementGain := c.placementGain pf
  admissionBenefit := c.admissionBenefit
  edgeset := c.placementEdgeset
  peredgeSyncedVictimset := c.victims.peredgeSyncedVictimset
  peredgeFetchedVictimset := c.victims.peredgeFetchedVictimset
  victimFetchEdgeset := c.victims.victimFetchEdgeset

/-- What the calculation returns. The caller hands in empty sets. -/
structure PlacementResult where
  isFinish : Bool := false
  hasBestPlacement : Bool := false
  bestPlacementEdgeset : Edgeset := []
  bestPlacementPeredgeSyncedVictimset : List (Nat × List Key) := []
  bestPlacementPeredgeFetchedVictimset : List (Nat × List Key) := []

namespace CoveredCacheManager

/-- The choice of the `topicnt` edges with the largest popularities. -/
def calcCandidate (m : CoveredCacheManager) (pf : Platform) (w : WeightInfo)
    (isGlobalCached : Bool) (popularity : AggregatedUncachedPopularity) (topicnt : Nat) :
    Option Candidate := do
  let (admissionBenefit, inserted) ← popularity.calcAdmissionBenefit pf.round
    (calcLocalUncachedReward pf.round w) topicnt isGlobalCached
  let placementEdgeset := pf.order inserted
  let (evictionCost, victims) ← m.victimTracker.calcEvictionCost pf.round w popularity.objectSize
    placementEdgeset [] []
  return ⟨admissionBenefit, placementEdgeset, evictionCost, victims⟩

/-- One choice; the first one and every better one is kept. -/
def considerTopi (m : CoveredCacheManager) (pf : Platform) (w : WeightInfo)
    (isGlobalCached : Bool) (popularity : AggregatedUncachedPopularity) (best : BestPlacement)
    (topicnt : Nat) : Option BestPlacement := do
  let c ← m.calcCandidate pf w isGlobalCached popularity topicnt
  return if topicnt = 1 ∨ c.placementGain pf > best.maxPlacementGain then c.toBest pf else best

/-- The choices of up to `n` edges. -/
def considerAll (m : CoveredCacheManager) (pf : Platform) (w : WeightInfo)
    (isGlobalCached : Bool) (popularity : AggregatedUncachedPopularity) (n : Nat) :
    Option BestPlacement :=
  (List.range' 1 n).foldlM (m.considerTopi pf w isGlobalCached popularity) {}

/-- The cost of the best choice with the fetched victims. The result has the synchronized victims of
this calculation; the source stores the edges of the victim fetch where it means the fetched
victims. -/
def recalculate (m : CoveredCacheManager) (pf : Platform) (w : WeightInfo) (objectSize : Nat)
    (best : BestPlacement) (fetched : FetchedVictims) : Option PlacementResult :=
  if fetched.peredgeVictimCacheinfos.length > 0 then do
    let (evictionCost, victims) ← m.victimTracker.calcEvictionCost pf.round w objectSize
      best.edgeset fetched.peredgeVictimCacheinfos fetched.perkeyVictimDirinfoset
    require (victims.victimFetchEdgeset.card = 0)
    if pf.placementGain best.admissionBenefit evictionCost > 0 then
      return {
        hasBestPlacement := true
        bestPlacementEdgeset := best.edgeset
        bestPlacementPeredgeSyncedVictimset := victims.peredgeSyncedVictimset }
    else return {}
  else return {}

/-- The best choice is reported if its gain is positive, after a victim fetch if it needs one. -/
def reportBest (m : CoveredCacheManager) (pf : Platform) (w : WeightInfo)
    (parallelFetchVictims : ParallelFetchVictims) (objectSize : Nat) (best : BestPlacement) :
    Option PlacementResult :=
  if best.maxPlacementGain > 0 then
    if best.victimFetchEdgeset.card = 0 then
      some {
        hasBestPlacement := true
        bestPlacementEdgeset := best.edgeset
        bestPlacementPeredgeSyncedVictimset := best.peredgeSyncedVictimset
        bestPlacementPeredgeFetchedVictimset := best.peredgeFetchedVictimset }
    else
      match parallelFetchVictims objectSize best.victimFetchEdgeset with
      | none => some { isFinish := true }
      | some fetched => m.recalculate pf w objectSize best fetched
  else some {}

/-- `placementCalculation_`. -/
def placementCalculation (m : CoveredCacheManager) (pf : Platform) (w : WeightInfo)
    (parallelFetchVictims : ParallelFetchVictims) (key : Key) (isGlobalCached : Bool) :
    Option PlacementResult := do
  let found ← m.popularityAggregator.getAggregatedUncachedPopularity key
  match found with
  | none => return {}
  | some popularity =>
      require (popularity.getTopkListLength ≤ m.popularityAggregator.topkEdgecnt)
      let best ← m.considerAll pf w isGlobalCached popularity popularity.getTopkListLength
      m.reportBest pf w parallelFetchVictims popularity.objectSize best

end CoveredCacheManager

/-! ## The first best choice -/

/-- Choice `j` is the first with the greatest gain among the first `n`. -/
structure IsFirstBest (pf : Platform) (choice : Nat → Option Candidate) (n j : Nat)
    (c : Candidate) : Prop where
  pos : 0 < j
  le : j ≤ n
  chosen : choice j = some c
  greatest : ∀ i, 0 < i → i ≤ n → ∃ d, choice i = some d ∧
    d.placementGain pf ≤ c.placementGain pf
  first : ∀ i, 0 < i → i < j → ∃ d, choice i = some d ∧
    d.placementGain pf < c.placementGain pf

section FirstBest

variable {pf : Platform} {choice : Nat → Option Candidate} {n j k : Nat} {c d : Candidate}

theorem IsFirstBest.unique (h : IsFirstBest pf choice n j c) (h' : IsFirstBest pf choice n k d) :
    c = d := by
  have key : ∀ {j k : Nat} {c d : Candidate}, IsFirstBest pf choice n j c →
      IsFirstBest pf choice n k d → ¬ j < k := by
    intro j k c d h h' hlt
    obtain ⟨e, he, hle⟩ := h'.first j h.pos hlt
    obtain ⟨e', he', hle'⟩ := h.greatest k h'.pos h'.le
    rw [h.chosen, Option.some.injEq] at he
    rw [h'.chosen, Option.some.injEq] at he'
    subst he he'
    exact absurd hle (not_lt.2 hle')
  have hjk : j = k := Nat.le_antisymm (Nat.not_lt.1 (key h' h)) (Nat.not_lt.1 (key h h'))
  have hchoice := h.chosen
  rw [hjk, h'.chosen, Option.some.injEq] at hchoice
  exact hchoice.symm

variable {m : CoveredCacheManager} {w : WeightInfo} {isGlobalCached : Bool}
variable {popularity : AggregatedUncachedPopularity} {best : BestPlacement}

/-- The loop keeps the first best choice with what was calculated for it. -/
theorem considerAll_spec
    (h : m.considerAll pf w isGlobalCached popularity n = some best) (hn : 0 < n) :
    ∃ j c, IsFirstBest pf (m.calcCandidate pf w isGlobalCached popularity) n j c ∧
      best = c.toBest pf := by
  induction n generalizing best with
  | zero => exact absurd hn (Nat.lt_irrefl 0)
  | succ n ih =>
    rw [CoveredCacheManager.considerAll, List.range'_concat, List.foldlM_append,
      bind_eq_some_iff] at h
    obtain ⟨before, hbefore, hlast⟩ := h
    simp only [List.foldlM_cons, List.foldlM_nil, CoveredCacheManager.considerTopi,
      bind_eq_some_iff, pure_eq_some_iff] at hlast
    obtain ⟨_, ⟨d, hd, rfl⟩, rfl⟩ := hlast
    rw [Nat.one_mul, Nat.add_comm 1 n] at hd ⊢
    rcases Nat.eq_zero_or_pos n with rfl | hpos
    · -- the first choice is kept whatever its gain
      refine ⟨1, d, ⟨Nat.one_pos, le_refl 1, hd, fun i hi hle => ?_, fun i hi hlt => ?_⟩, ?_⟩
      · obtain rfl : i = 1 := by omega
        exact ⟨d, hd, le_refl _⟩
      · omega
      · rw [if_pos (.inl rfl)]
    · obtain ⟨j, c, hbest, rfl⟩ := ih hbefore hpos
      have hne : ¬ n + 1 = 1 := by omega
      by_cases hgain : d.placementGain pf > (c.toBest pf).maxPlacementGain
      · refine ⟨n + 1, d, ⟨Nat.succ_pos n, le_refl _, hd, fun i hi hle => ?_,
          fun i hi hlt => ?_⟩, by rw [if_pos (.inr hgain)]⟩
        · rcases Nat.lt_succ_iff_lt_or_eq.1 (Nat.lt_succ_of_le hle) with hlt | rfl
          · obtain ⟨e, he, hle⟩ := hbest.greatest i hi (Nat.le_of_lt_succ hlt)
            exact ⟨e, he, hle.trans hgain.le⟩
          · exact ⟨d, hd, le_refl _⟩
        · obtain ⟨e, he, hle⟩ := hbest.greatest i hi (Nat.le_of_lt_succ hlt)
          exact ⟨e, he, hle.trans_lt hgain⟩
      · refine ⟨j, c, ⟨hbest.pos, hbest.le.trans (Nat.le_succ n), hbest.chosen,
          fun i hi hle => ?_, hbest.first⟩, by rw [if_neg (not_or.2 ⟨hne, hgain⟩)]⟩
        rcases Nat.lt_succ_iff_lt_or_eq.1 (Nat.lt_succ_of_le hle) with hlt | rfl
        · exact hbest.greatest i hi (Nat.le_of_lt_succ hlt)
        · exact ⟨d, hd, not_lt.1 hgain⟩

end FirstBest

/-! ## What is reported -/

/-- The eviction cost that was calculated last for a choice, with its victims. -/
def CoveredCacheManager.lastEvictionCost (m : CoveredCacheManager) (pf : Platform)
    (w : WeightInfo) (parallelFetchVictims : ParallelFetchVictims) (objectSize : Nat)
    (c : Candidate) : Option (DeltaReward × PlacementVictims) :=
  if c.victims.victimFetchEdgeset.card = 0 then some (c.evictionCost, c.victims)
  else
    (parallelFetchVictims objectSize c.victims.victimFetchEdgeset).bind fun fetched =>
      m.victimTracker.calcEvictionCost pf.round w objectSize c.placementEdgeset
        fetched.peredgeVictimCacheinfos fetched.perkeyVictimDirinfoset

/-- A placement is reported for the first best choice, with a positive gain and with the
synchronized victims that were calculated last for it. -/
structure ReportsBest (m : CoveredCacheManager) (pf : Platform) (w : WeightInfo)
    (parallelFetchVictims : ParallelFetchVictims) (isGlobalCached : Bool)
    (popularity : AggregatedUncachedPopularity) (r : PlacementResult) (c : Candidate)
    (victims : PlacementVictims) : Prop where
  best : ∃ j, IsFirstBest pf (m.calcCandidate pf w isGlobalCached popularity)
    popularity.getTopkListLength j c
  edgeset : r.bestPlacementEdgeset = c.placementEdgeset
  calculated : ∃ evictionCost,
    m.lastEvictionCost pf w parallelFetchVictims popularity.objectSize c =
      some (evictionCost, victims) ∧ 0 < pf.placementGain c.admissionBenefit evictionCost
  synced : r.bestPlacementPeredgeSyncedVictimset = victims.peredgeSyncedVictimset

/-- The whole report is right: also the fetched victims are those that were calculated last. -/
def Reports (m : CoveredCacheManager) (pf : Platform) (w : WeightInfo)
    (parallelFetchVictims : ParallelFetchVictims) (key : Key) (isGlobalCached : Bool)
    (r : PlacementResult) : Prop :=
  ∃ popularity c victims,
    m.popularityAggregator.getAggregatedUncachedPopularity key = some (some popularity) ∧
    ReportsBest m pf w parallelFetchVictims isGlobalCached popularity r c victims ∧
    r.bestPlacementPeredgeFetchedVictimset = victims.peredgeFetchedVictimset

section Report

variable {m : CoveredCacheManager} {pf : Platform} {w : WeightInfo}
variable {parallelFetchVictims : ParallelFetchVictims}
variable {key : Key} {isGlobalCached : Bool} {popularity : AggregatedUncachedPopularity}
variable {r : PlacementResult} {c : Candidate} {victims : PlacementVictims}

/-- What is reported after a victim fetch. -/
theorem recalculate_spec {fetched : FetchedVictims} {objectSize : Nat}
    (h : m.recalculate pf w objectSize (c.toBest pf) fetched = some r)
    (hbest : r.hasBestPlacement = true) :
    ∃ evictionCost victims,
      m.victimTracker.calcEvictionCost pf.round w objectSize c.placementEdgeset
          fetched.peredgeVictimCacheinfos fetched.perkeyVictimDirinfoset =
        some (evictionCost, victims) ∧
      0 < pf.placementGain c.admissionBenefit evictionCost ∧
      r = {
        hasBestPlacement := true
        bestPlacementEdgeset := c.placementEdgeset
        bestPlacementPeredgeSyncedVictimset := victims.peredgeSyncedVictimset } := by
  rw [CoveredCacheManager.recalculate] at h
  split at h
  · simp only [bind_eq_some_iff, Prod.exists] at h
    obtain ⟨evictionCost, victims, hcost, -, -, h⟩ := h
    split at h
    · next hgain => exact ⟨evictionCost, victims, hcost, hgain, (Option.some.inj h).symm⟩
    · cases h
      cases hbest
  · cases h
    cases hbest

/-- The choice that is reported, and which fetched victims come with it. -/
theorem reportBest_spec
    (hfirst : ∃ j, IsFirstBest pf (m.calcCandidate pf w isGlobalCached popularity)
      popularity.getTopkListLength j c)
    (h : m.reportBest pf w parallelFetchVictims popularity.objectSize (c.toBest pf) = some r)
    (hbest : r.hasBestPlacement = true) :
    ∃ victims, ReportsBest m pf w parallelFetchVictims isGlobalCached popularity r c victims ∧
      r.bestPlacementPeredgeFetchedVictimset =
        if c.victims.victimFetchEdgeset.card = 0 then victims.peredgeFetchedVictimset else [] := by
  rw [CoveredCacheManager.reportBest] at h
  split at h
  · next hgain =>
    split at h
    · next hnone =>
      have hcalculated : m.lastEvictionCost pf w parallelFetchVictims popularity.objectSize c =
          some (c.evictionCost, c.victims) := if_pos hnone
      cases h
      exact ⟨c.victims, ⟨hfirst, rfl, ⟨_, hcalculated, hgain⟩, rfl⟩, (if_pos hnone).symm⟩
    · next hsome =>
      split at h
      · cases h
        cases hbest
      · next fetched hfetched =>
        obtain ⟨evictionCost, victims, hcost, hpos, rfl⟩ := recalculate_spec h hbest
        have hcalculated : m.lastEvictionCost pf w parallelFetchVictims popularity.objectSize c =
            some (evictionCost, victims) :=
          (if_neg hsome).trans (bind_eq_some_iff.2 ⟨fetched, hfetched, hcost⟩)
        exact ⟨victims, ⟨hfirst, rfl, ⟨_, hcalculated, hpos⟩, rfl⟩, (if_neg hsome).symm⟩
  · cases h
    cases hbest

/-- A reported placement is the first best choice, but after a victim fetch no fetched victims are
reported. -/
theorem reportsBest_of_hasBestPlacement
    (h : m.placementCalculation pf w parallelFetchVictims key isGlobalCached = some r)
    (hbest : r.hasBestPlacement = true) :
    ∃ popularity c victims,
      m.popularityAggregator.getAggregatedUncachedPopularity key = some (some popularity) ∧
      ReportsBest m pf w parallelFetchVictims isGlobalCached popularity r c victims ∧
      r.bestPlacementPeredgeFetchedVictimset =
        if c.victims.victimFetchEdgeset.card = 0 then victims.peredgeFetchedVictimset else [] := by
  simp only [CoveredCacheManager.placementCalculation, Option.bind_eq_bind,
    Option.bind_eq_some_iff] at h
  obtain ⟨found, hfound, h⟩ := h
  split at h
  · cases h
    cases hbest
  · next popularity =>
    simp only [Option.bind_eq_some_iff] at h
    obtain ⟨-, -, best, hall, h⟩ := h
    rcases Nat.eq_zero_or_pos popularity.getTopkListLength with hzero | hpos
    · -- without any edge there is no gain
      rw [hzero] at hall
      cases hall
      cases h
      cases hbest
    · obtain ⟨j, c, hfirst, rfl⟩ := considerAll_spec hall hpos
      obtain ⟨victims, hreports, hfetched⟩ := reportBest_spec ⟨j, hfirst⟩ h hbest
      exact ⟨popularity, c, victims, hfound, hreports, hfetched⟩

/-- The edges of a choice are distinct if those of the list are. -/
theorem nodup_placementEdgeset (hdistinct : (popularity.topk.map Prod.fst).Nodup) {topicnt : Nat}
    (h : m.calcCandidate pf w isGlobalCached popularity topicnt = some c) :
    c.placementEdgeset.Nodup := by
  simp only [CoveredCacheManager.calcCandidate, AggregatedUncachedPopularity.calcAdmissionBenefit,
    AggregatedUncachedPopularity.getTopiLocalUncachedPopularitySum, bind_eq_some_iff,
    pure_eq_some_iff, Prod.exists, Prod.mk.injEq] at h
  obtain ⟨_, _, ⟨_, _, ⟨-, -, -, rfl⟩, -, -, -, rfl⟩, _, _, -, rfl⟩ := h
  exact (pf.perm _).nodup_iff.2 (hdistinct.sublist ((List.drop_sublist _ _).map Prod.fst))

/-- After a victim fetch no fetched victim is evicted iff, at the edges whose tracked victims are
too small, all fetched victims are tracked. -/
theorem peredgeFetchedVictimset_eq_nil_iff
    (hdistinct : (popularity.topk.map Prod.fst).Nodup)
    (h : ReportsBest m pf w parallelFetchVictims isGlobalCached popularity r c victims)
    (hfetch : c.victims.victimFetchEdgeset.card ≠ 0) :
    ∃ fetched, parallelFetchVictims popularity.objectSize c.victims.victimFetchEdgeset =
        some fetched ∧
      (victims.peredgeFetchedVictimset = [] ↔ ∀ edgeIdx ∈ c.placementEdgeset,
        ∀ metadata, m.victimTracker.peredgeVictimMetadata edgeIdx = some metadata →
          Lacks metadata popularity.objectSize →
          ∀ v ∈ extraOf fetched.peredgeVictimCacheinfos edgeIdx,
            v.key ∈ metadata.victimCacheinfos.map VictimCacheinfo.key) := by
  obtain ⟨j, hfirst⟩ := h.best
  obtain ⟨evictionCost, hcalculated, -⟩ := h.calculated
  rw [CoveredCacheManager.lastEvictionCost, if_neg hfetch, Option.bind_eq_some_iff] at hcalculated
  obtain ⟨fetched, hfetched, hcost⟩ := hcalculated
  obtain ⟨q, hcollected, rfl⟩ :=
    collected_of_calcEvictionCost (nodup_placementEdgeset hdistinct hfirst.chosen) hcost
  refine ⟨fetched, hfetched, hcollected.fetched.trans ?_⟩
  exact forall₂_congr fun edgeIdx _ => fetchedOf_eq_nil_iff

end Report

/-- At the edges of the first best choice whose tracked victims are too small, all victims that were
fetched are tracked. -/
def FetchesOnlyTracked (m : CoveredCacheManager) (pf : Platform) (w : WeightInfo)
    (parallelFetchVictims : ParallelFetchVictims) (key : Key) (isGlobalCached : Bool) : Prop :=
  ∀ popularity j c fetched,
    m.popularityAggregator.getAggregatedUncachedPopularity key = some (some popularity) →
    IsFirstBest pf (m.calcCandidate pf w isGlobalCached popularity)
      popularity.getTopkListLength j c →
    c.victims.victimFetchEdgeset.card ≠ 0 →
    parallelFetchVictims popularity.objectSize c.victims.victimFetchEdgeset = some fetched →
    ∀ edgeIdx ∈ c.placementEdgeset, ∀ metadata,
      m.victimTracker.peredgeVictimMetadata edgeIdx = some metadata →
      Lacks metadata popularity.objectSize →
      ∀ v ∈ extraOf fetched.peredgeVictimCacheinfos edgeIdx,
        v.key ∈ metadata.victimCacheinfos.map VictimCacheinfo.key

/-- The report of a placement is right iff the victim fetch, if there is one, brings no new victims
of the edges that lack some. -/
theorem reports_iff {m : CoveredCacheManager} {pf : Platform} {w : WeightInfo}
    {parallelFetchVictims : ParallelFetchVictims} {key : Key} {isGlobalCached : Bool}
    {r : PlacementResult}
    (hdistinct : ∀ popularity,
      m.popularityAggregator.getAggregatedUncachedPopularity key = some (some popularity) →
      (popularity.topk.map Prod.fst).Nodup)
    (h : m.placementCalculation pf w parallelFetchVictims key isGlobalCached = some r)
    (hbest : r.hasBestPlacement = true) :
    Reports m pf w parallelFetchVictims key isGlobalCached r ↔
      FetchesOnlyTracked m pf w parallelFetchVictims key isGlobalCached := by
  obtain ⟨popularity, c, victims, hget, hreports, hfetched⟩ :=
    reportsBest_of_hasBestPlacement h hbest
  constructor
  · rintro ⟨popularity', c', victims', hget', hreports', hfetched'⟩
    intro popularity'' j c'' fetched hget'' hfirst hcard hfetch
    -- both reports are about the same choice
    rw [hget'] at hget
    rw [hget'] at hget''
    cases hget
    cases hget''
    obtain ⟨i, hi⟩ := hreports.best
    obtain ⟨i', hi'⟩ := hreports'.best
    obtain rfl := hfirst.unique hi
    obtain rfl := hfirst.unique hi'
    obtain ⟨_, hcalculated, -⟩ := hreports.calculated
    obtain ⟨_, hcalculated', -⟩ := hreports'.calculated
    obtain ⟨fetched', hfetch', hiff⟩ :=
      peredgeFetchedVictimset_eq_nil_iff (hdistinct _ hget') hreports' hcard
    rw [hfetch, Option.some.injEq] at hfetch'
    subst hfetch'
    rw [hfetched, if_neg hcard] at hfetched'
    exact hiff.1 hfetched'.symm
  · intro honly
    refine ⟨popularity, c, victims, hget, hreports, hfetched.trans ?_⟩
    split
    · rfl
    · next hcard =>
      obtain ⟨j, hfirst⟩ := hreports.best
      obtain ⟨fetched, hfetch, hiff⟩ :=
        peredgeFetchedVictimset_eq_nil_iff (hdistinct _ hget) hreports hcard
      exact (hiff.2 (honly popularity j c fetched hget hfirst hcard hfetch)).symm

/-! ## A full edge that has to fetch victims -/

/-- An object of two bytes that is popular at edge `0`. -/
def samplePopularity : AggregatedUncachedPopularity where
  key := ⟨[9]⟩
  objectSize := 2
  sumLocalUncachedPopularity := 10
  topk := [(0, 10)]
  bitmap := [true]
  existEdgecnt := 1

/-- The beacon of this object, which tracks one victim of one byte. -/
def sampleManager : CoveredCacheManager where
  popularityAggregator := {
    edgecnt := 1
    popularityAggregationCapacityBytes := 1000
    topkEdgecnt := 1
    nextId := 1
    benefitPopularityMultimap := [⟨0, 20, samplePopularity⟩]
    perkeyBenefitPopularityTable := (∅ : UnorderedMap Key Nat).insert ⟨[9]⟩ 0 }
  victimTracker := fullEdgeTracker

/-- Exact numbers, and edges in the order in which they were inserted. -/
def samplePlatform : Platform := ⟨.exact, id, fun _ => .refl _⟩

/-- Edge `0` sends the given victims. -/
def sends (victims : List VictimCacheinfo) : ParallelFetchVictims :=
  fun _ _ => some { peredgeVictimCacheinfos := [(0, victims)] }

theorem samplePopularity_of_eq {popularity : AggregatedUncachedPopularity}
    (h : sampleManager.popularityAggregator.getAggregatedUncachedPopularity ⟨[9]⟩ =
      some (some popularity)) : popularity = samplePopularity := by
  have hget : sampleManager.popularityAggregator.getAggregatedUncachedPopularity ⟨[9]⟩ =
      some (some samplePopularity) := by rfl
  rw [hget] at h
  cases h
  rfl

theorem distinct_samplePopularity (popularity : AggregatedUncachedPopularity)
    (h : sampleManager.popularityAggregator.getAggregatedUncachedPopularity ⟨[9]⟩ =
      some (some popularity)) : (popularity.topk.map Prod.fst).Nodup := by
  rw [samplePopularity_of_eq h]
  decide

/-- Where the fetched victim is the tracked one the report is right. -/
theorem reports_trackedVictim : ∃ r,
    sampleManager.placementCalculation samplePlatform ⟨2, 1⟩ (sends [smallVictim 1]) ⟨[9]⟩ false =
      some r ∧ r.hasBestPlacement = true ∧
    Reports sampleManager samplePlatform ⟨2, 1⟩ (sends [smallVictim 1]) ⟨[9]⟩ false r := by
  have hsome : (sampleManager.placementCalculation samplePlatform ⟨2, 1⟩ (sends [smallVictim 1])
      ⟨[9]⟩ false).any PlacementResult.hasBestPlacement = true := by
    decide +kernel
  obtain ⟨r, hr, hbest⟩ := Option.any_eq_true _ _ |>.1 hsome
  refine ⟨r, hr, hbest, (reports_iff distinct_samplePopularity hr hbest).2 ?_⟩
  intro popularity j c fetched _ _ _ hfetched edgeIdx _ metadata hmetadata _ v hv
  cases hfetched
  cases hmetadata
  rw [extraOf_singleton] at hv
  split at hv
  · rw [List.mem_singleton.1 hv]
    decide +kernel
  · cases hv

/-- A second victim that was fetched is evicted, but it is not reported. -/
theorem fetchedVictim_not_reported : ¬ ∀ m pf w parallelFetchVictims key isGlobalCached r,
    (∀ popularity,
      m.popularityAggregator.getAggregatedUncachedPopularity key = some (some popularity) →
      (popularity.topk.map Prod.fst).Nodup) →
    m.placementCalculation pf w parallelFetchVictims key isGlobalCached = some r →
    r.hasBestPlacement = true → Reports m pf w parallelFetchVictims key isGlobalCached r := by
  intro h
  have hsome : (sampleManager.placementCalculation samplePlatform ⟨2, 1⟩
      (sends [smallVictim 1, smallVictim 2]) ⟨[9]⟩ false).any (fun r => r.hasBestPlacement &&
        decide (r.bestPlacementPeredgeFetchedVictimset = [])) = true := by
    decide +kernel
  have hcalculated :
      ((sampleManager.calcCandidate samplePlatform ⟨2, 1⟩ false samplePopularity 1).bind
        (sampleManager.lastEvictionCost samplePlatform ⟨2, 1⟩
          (sends [smallVictim 1, smallVictim 2]) 2)).all
        (fun x => decide (x.2.peredgeFetchedVictimset ≠ [])) = true := by
    decide +kernel
  obtain ⟨r, hr, hbest⟩ := Option.any_eq_true _ _ |>.1 hsome
  rw [Bool.and_eq_true, decide_eq_true_iff] at hbest
  obtain ⟨popularity, c, victims, hget, hreports, hfetched⟩ :=
    h _ _ _ _ _ _ r distinct_samplePopularity hr hbest.1
  obtain rfl := samplePopularity_of_eq hget
  obtain ⟨j, hfirst⟩ := hreports.best
  obtain ⟨evictionCost, hcost, -⟩ := hreports.calculated
  obtain rfl : j = 1 := Nat.le_antisymm hfirst.le hfirst.pos
  rw [hfirst.chosen, Option.bind_some, show sampleManager.lastEvictionCost _ _ _ 2 c = _ from hcost,
    Option.all_some, decide_eq_true_iff, ← hfetched] at hcalculated
  exact hcalculated hbest.2

end Covered.Placement
