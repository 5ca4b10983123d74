import Mathlib.Data.Finset.Card
import Covered.Lib.GroupedSum
import Covered.Lib.ShortestPrefix
import Covered.Cache.KeyLevelMetadata
import Covered.Popularity.AggregatedUncachedPopularity
import Covered.Victim.VictimTracker

/-!
# Eviction cost in the victim tracker

The beacon of a key asks its victim tracker what the placement of an object at a set of edges costs:
the rewards of the victims that these edges would evict. An edge that was never heard from is empty
and evicts nothing. For another edge the tracker takes victims, in the order of their rewards, until
they save the bytes that do not fit into the free bytes of the edge. Where the synchronized victims
are too small, the edge is noted for a victim fetch; in a second call the fetched victims that are
not taken yet follow the synchronized ones.

`saveBytes` is the loop that takes victims; `saveBytes_eq_some_iff` says that it takes the shortest
prefix that saves the missing bytes.
-/

set_option autoImplicit false

namespace Covered.Victim

open Common Cooperation Lib Lib.Checked VictimCacheinfo
open Popularity (Edgeset)

/-! ## Taking victims -/

/-- The loop over victims until the required bytes are saved; each victim is complete. -/
def saveBytes {σ : Type} (add : σ → VictimCacheinfo → σ) (requiredBytes : Nat) :
    σ → Nat → List VictimCacheinfo → Option (σ × Nat)
  | found, savedBytes, [] => some (found, savedBytes)
  | found, savedBytes, v :: rest => do
      require (v.isComplete = true)
      let found := add found v
      let victimObjectSize ← v.getObjectSize
      let savedBytes := savedBytes + victimObjectSize
      if savedBytes ≥ requiredBytes then return (found, savedBytes)
      else saveBytes add requiredBytes found savedBytes rest

section SaveBytes

variable {σ : Type} {add : σ → VictimCacheinfo → σ} {required savedBytes savedBytes' : Nat}
variable {found found' : σ} {victims : List VictimCacheinfo} {v : VictimCacheinfo}

/-- The fields of a complete cacheinfo. -/
theorem fields_of_isComplete (h : v.isComplete = true) :
    v.getObjectSize = some v.objectSize ∧
      v.getLocalCachedPopularity = some v.localCachedPopularity ∧
      v.getRedirectedCachedPopularity = some v.redirectedCachedPopularity ∧
      v.getRedirectedCachedPopularityReward = some v.redirectedCachedReward := by
  have hbitmap := bitmap_of_isComplete h
  rw [getObjectSize, getLocalCachedPopularity,
    getRedirectedCachedPopularity,
    getRedirectedCachedPopularityReward, hbitmap]
  exact ⟨rfl, rfl, rfl, rfl⟩

/-- The loop takes the shortest prefix that saves the missing bytes. -/
theorem saveBytes_eq_some_iff (h : savedBytes < required) :
    saveBytes add required found savedBytes victims = some (found', savedBytes') ↔
      (∀ v ∈ shortestPrefix objectSize (required - savedBytes) victims,
        v.isComplete = true) ∧
      (shortestPrefix objectSize (required - savedBytes) victims).foldl add found =
        found' ∧
      savedBytes + ((shortestPrefix objectSize (required - savedBytes)
        victims).map objectSize).sum = savedBytes' := by
  induction victims generalizing found savedBytes with
  | nil =>
    rw [saveBytes, Option.some.injEq, Prod.mk.injEq]
    exact (and_iff_right fun v hv => nomatch hv).symm
  | cons v rest ih =>
    rw [saveBytes, shortestPrefix_cons v (by omega), List.forall_mem_cons]
    by_cases hv : v.isComplete = true
    · rw [require_bind hv, (fields_of_isComplete hv).1]
      simp only [some_bind, hv, true_and]
      by_cases hsaved : savedBytes + v.objectSize ≥ required
      · -- the loop stops here, and so does the prefix
        have hzero : required - savedBytes - v.objectSize = 0 := by omega
        rw [if_pos hsaved, hzero, shortestPrefix_zero, pure_eq_some_iff, Prod.mk.injEq]
        exact (and_iff_right fun v hv => nomatch hv).symm
      · rw [if_neg hsaved, ih (by omega), Nat.sub_sub, List.map_cons, List.sum_cons,
          List.foldl_cons, ← Nat.add_assoc]
    · rw [Option.bind_eq_bind, require_of_not hv]
      exact iff_of_false (fun h => nomatch h) fun h => hv h.1.1

end SaveBytes

/-! ## Victims of a placement -/

/-- What the tracker finds for a placement: for each victim key the edges that evict it and its
cacheinfos, for each edge the synchronized and the fetched victim keys, and the edges whose victims
are to be fetched. -/
structure PlacementVictims where
  pervictimEdgeset : List (Key × Finset Nat) := []
  pervictimCacheinfos : List (Key × List VictimCacheinfo) := []
  peredgeSyncedVictimset : List (Nat × List Key) := []
  peredgeFetchedVictimset : List (Nat × List Key) := []
  victimFetchEdgeset : Finset Nat := ∅

namespace PlacementVictims

/-- Add a victim of an edge by its key. -/
def updatePervictim (p : PlacementVictims) (curEdgeIdx : Nat) (v : VictimCacheinfo) :
    PlacementVictims :=
  { p with
    pervictimEdgeset :=
      upsert v.key (fun edges => insert curEdgeIdx (edges.getD ∅)) p.pervictimEdgeset
    pervictimCacheinfos :=
      upsert v.key (fun infos => infos.getD [] ++ [v]) p.pervictimCacheinfos }

/-- Add a synchronized victim of an edge. -/
def addSynced (curEdgeIdx : Nat) (p : PlacementVictims) (v : VictimCacheinfo) : PlacementVictims :=
  { p.updatePervictim curEdgeIdx v with
    peredgeSyncedVictimset :=
      upsert curEdgeIdx (fun keys => keys.getD [] ++ [v.key]) p.peredgeSyncedVictimset }

/-- Add a fetched victim of an edge. -/
def addFetched (curEdgeIdx : Nat) (p : PlacementVictims) (v : VictimCacheinfo) :
    PlacementVictims :=
  { p.updatePervictim curEdgeIdx v with
    peredgeFetchedVictimset :=
      upsert curEdgeIdx (fun keys => keys.getD [] ++ [v.key]) p.peredgeFetchedVictimset }

end PlacementVictims

/-- The loop over the fetched victims, which skips those that were synchronized. -/
def saveExtraBytes (requiredBytes curEdgeIdx : Nat) (synced : List Key) :
    PlacementVictims → Nat → List VictimCacheinfo → Option (PlacementVictims × Nat)
  | p, savedBytes, [] => some (p, savedBytes)
  | p, savedBytes, v :: rest => do
      require (v.isComplete = true)
      if v.key ∈ synced then saveExtraBytes requiredBytes curEdgeIdx synced p savedBytes rest
      else
        let p := p.addFetched curEdgeIdx v
        let victimObjectSize ← v.getObjectSize
        let savedBytes := savedBytes + victimObjectSize
        if savedBytes ≥ requiredBytes then return (p, savedBytes)
        else saveExtraBytes requiredBytes curEdgeIdx synced p savedBytes rest

namespace EdgelevelVictimMetadata

/-- Where the synchronized victims do not save the required bytes: go on with the fetched ones, or
note the edge for a victim fetch. -/
def findExtraVictims (curEdgeIdx requiredBytes : Nat) (extraVictimCacheinfos : List VictimCacheinfo)
    (p : PlacementVictims) (savedBytes : Nat) : Option PlacementVictims :=
  if extraVictimCacheinfos.length > 0 then do
    let synced := (valueOf curEdgeIdx p.peredgeSyncedVictimset).getD []
    let (p, _) ← saveExtraBytes requiredBytes curEdgeIdx synced p savedBytes extraVictimCacheinfos
    return p
  else do
    require (curEdgeIdx ∉ p.victimFetchEdgeset)
    return { p with victimFetchEdgeset := insert curEdgeIdx p.victimFetchEdgeset }

/-- Find the victims of one edge. -/
def findVictimsForObjectSize (metadata : EdgelevelVictimMetadata) (curEdgeIdx objectSize : Nat)
    (p : PlacementVictims) (extraVictimCacheinfos : List VictimCacheinfo) :
    Option PlacementVictims :=
  if objectSize > metadata.cacheMarginBytes then do
    let requiredBytes := objectSize - metadata.cacheMarginBytes
    let (p, savedBytes) ← saveBytes (PlacementVictims.addSynced curEdgeIdx) requiredBytes p 0
      metadata.victimCacheinfos
    if savedBytes < requiredBytes then
      findExtraVictims curEdgeIdx requiredBytes extraVictimCacheinfos p savedBytes
    else return p
  else some p

end EdgelevelVictimMetadata

/-- Whether all infos of the sets are about edges that evict the key. -/
def checkDirinfoSets (victimEdgeset : Finset Nat) : List DirinfoSet → Option Bool
  | [] => some true
  | dirinfoSet :: rest => do
      let dirinfos ← dirinfoSet.getDirinfoSetIfComplete
      if dirinfos.all fun dirinfo => decide (dirinfo.targetEdgeIdx ∈ victimEdgeset) then
        checkDirinfoSets victimEdgeset rest
      else return false

/-- The set of a key in a list of sets, as a list; it is complete. -/
def getDirinfoSets (dirinfoSet : Option DirinfoSet) : Option (List DirinfoSet) :=
  match dirinfoSet with
  | none => some []
  | some dirinfoSet => do
      require (dirinfoSet.isComplete = true)
      return [dirinfoSet]

namespace VictimTracker

/-- One edge of the placement. -/
def findVictimsForEdge (t : VictimTracker) (objectSize : Nat)
    (extraPeredgeVictimCacheinfos : List (Nat × List VictimCacheinfo)) (p : PlacementVictims)
    (edgeIdx : Nat) : Option PlacementVictims :=
  match t.peredgeVictimMetadata edgeIdx with
  | none => some p
  | some metadata =>
      metadata.findVictimsForObjectSize edgeIdx objectSize p
        ((valueOf edgeIdx extraPeredgeVictimCacheinfos).getD [])

/-- Find the victims of a placement. A call with fetched victims notes no edge for a fetch. -/
def findVictimsForPlacement (t : VictimTracker) (objectSize : Nat) (placementEdgeset : Edgeset)
    (extraPeredgeVictimCacheinfos : List (Nat × List VictimCacheinfo)) :
    Option PlacementVictims := do
  let p ← placementEdgeset.foldlM
    (t.findVictimsForEdge objectSize extraPeredgeVictimCacheinfos) {}
  if extraPeredgeVictimCacheinfos.length > 0 then return { p with victimFetchEdgeset := ∅ }
  else return p

/-- Whether the edges that evict a key are all that cache it, as far as the tracker knows; a key
without any directory infos is taken to have no other copies. -/
def isLastCopiesForVictimEdgeset (t : VictimTracker) (key : Key) (victimEdgeset : Finset Nat)
    (extraPerkeyVictimDirinfoset : List (Key × DirinfoSet)) : Option Bool := do
  let tracked ← getDirinfoSets
    ((valueOf key t.perkeyVictimDirinfo).map VictimDirinfo.dirinfoSet)
  let extra ← getDirinfoSets (valueOf key extraPerkeyVictimDirinfoset)
  checkDirinfoSets victimEdgeset (tracked ++ extra)

/-- The reward of one victim with the weights of the edge that calculates. -/
def calcVictimReward (r : Rounding) (w : Cache.WeightInfo) (isLastCopies : Bool)
    (v : VictimCacheinfo) : Option Reward := do
  require (v.isComplete = true)
  let localCachedPopularity ← v.getLocalCachedPopularity
  let redirectedCachedPopularity ← v.getRedirectedCachedPopularity
  return Cache.calcLocalCachedReward r w localCachedPopularity redirectedCachedPopularity
    isLastCopies

/-- The costs of one victim key at the edges that evict it. -/
def calcVictimCost (t : VictimTracker) (r : Rounding) (w : Cache.WeightInfo)
    (extraPerkeyVictimDirinfoset : List (Key × DirinfoSet)) (p : PlacementVictims)
    (entry : Key × Finset Nat) : Option (List DeltaReward) := do
  let isLastCopies ← t.isLastCopiesForVictimEdgeset entry.1 entry.2 extraPerkeyVictimDirinfoset
  let cacheinfos ← valueOf entry.1 p.pervictimCacheinfos
  require (cacheinfos.length = entry.2.card)
  cacheinfos.mapM (calcVictimReward r w isLastCopies)

/-- The eviction cost of a placement, which adds the costs of the victims one after the other;
returns also the victims found. -/
def calcEvictionCost (t : VictimTracker) (r : Rounding) (w : Cache.WeightInfo) (objectSize : Nat)
    (placementEdgeset : Edgeset)
    (extraPeredgeVictimCacheinfos : List (Nat × List VictimCacheinfo))
    (extraPerkeyVictimDirinfoset : List (Key × DirinfoSet)) :
    Option (DeltaReward × PlacementVictims) := do
  let p ← t.findVictimsForPlacement objectSize placementEdgeset extraPeredgeVictimCacheinfos
  -- no victim fetch after a victim fetch
  require (extraPeredgeVictimCacheinfos.length > 0 → p.victimFetchEdgeset.card = 0)
  let costs ← p.pervictimEdgeset.mapM (t.calcVictimCost r w extraPerkeyVictimDirinfoset p)
  return (r.sum costs.flatten, p)

end VictimTracker

end Covered.Victim
