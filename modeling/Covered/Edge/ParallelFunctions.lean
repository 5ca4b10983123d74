import Covered.Edge.EdgeConfig
import Covered.Cache.CacheWrapper
import Covered.Edge.ParallelRequest
import Covered.Victim.VictimTracker

/-!
# The functions that ask many targets at once

`parallelInvalidateCacheCopies` and `parallelNotifyEdgesToFinishBlock` belong to the write protocol,
`parallelEvictDirectory` to evictions, and `parallelFetchVictims` to placements. Each is the loop of
`Covered.Edge.ParallelRequest` with its own parts. What the subclasses of an edge wrapper or a cache
server do with a request or a response is a parameter; it works on a state `σ`, which includes the
bandwidth usage and the event list that the functions return.

`parallel_functions_robust` is what all four guarantee, and under which condition.
-/

set_option autoImplicit false

namespace Covered.Edge

open Common Cooperation Cache Victim Lib Lib.Checked Lib.Execution

/-- A response to an edge: which edge sends it, from which address, and what is in it. -/
structure ControlResponse (π : Type) where
  sourceIndex : Nat
  sourceAddr : NetworkAddr
  content : π

/-! ## The write protocol -/

/-- What the functions of an edge wrapper need: the edge, the addresses of the cache servers, and
what the subclass does to prepare requests and to process responses. -/
structure EdgeWrapper (σ π : Type) where
  nodeIdx : Nat
  config : EdgeConfig
  cacheServerRecvreqAddr : Nat → NetworkAddr
  getInvalidationRequest : Key → Nat → σ → σ
  processInvalidationResponse : ControlResponse π → σ → σ
  getFinishBlockRequest : Key → Option Nat → σ → σ
  processFinishBlockResponse : ControlResponse π → σ → σ

variable {σ π : Type}

/-- The object is invalidated if it is cached. -/
def invalidateLocalCopy (key : Key) (cache : CacheWrapper) : CacheWrapper :=
  if cache.isLocalCached key then cache.invalidateKeyForLocalCachedObject key else cache

/-- Invalidate the copies of a key in all edges of its directory; the targets are these edges. -/
def parallelInvalidateCacheCopies (edge : EdgeWrapper σ π) (key : Key) :
    ParallelRequest Nat (ControlResponse π) (CacheWrapper × σ) where
  maxVictimcnt := none
  isCurrent := fun t => decide (t = edge.nodeIdx)
  mayRequest := fun _ => true
  handleCurrent := fun _ acc => ((invalidateLocalCopy key acc.1, acc.2), false)
  getRequest := fun t acc => (acc.1, edge.getInvalidationRequest key t acc.2)
  target := fun r => r.sourceIndex
  accepts := fun r => decide (edge.cacheServerRecvreqAddr r.sourceIndex = r.sourceAddr)
  process := fun r acc => ((acc.1, edge.processInvalidationResponse r acc.2), false)
  processesUnmatched := false
  measuresFirstRtt := false
  unmatched_single := fun _ => rfl

/-- Tell blocked workers that a write has finished; the targets are their addresses. A worker of the
edge itself is never blocked, which is asserted of the edge computed from the address. -/
def parallelNotifyEdgesToFinishBlock (edge : EdgeWrapper σ π) (key : Key) :
    ParallelRequest NetworkAddr (ControlResponse π) σ where
  maxVictimcnt := none
  isCurrent := fun _ => false
  mayRequest := fun addr =>
    (edge.config.getEdgeIdxFromCacheServerWorkerRecvreqAddr addr).any fun edgeIdx =>
      decide (edgeIdx ≠ edge.nodeIdx)
  handleCurrent := fun _ acc => (acc, false)
  getRequest := fun addr acc => edge.getFinishBlockRequest key
    (edge.config.getEdgeIdxFromCacheServerWorkerRecvreqAddr addr) acc
  target := fun r => r.sourceAddr
  accepts := fun _ => true
  process := fun r acc => (edge.processFinishBlockResponse r acc, false)
  processesUnmatched := true
  measuresFirstRtt := false
  unmatched_single := fun _ => rfl

/-! ## Evictions -/

/-- A response to the eviction of the directory info of a key. -/
structure DirectoryUpdateResponse (π : Type) extends ControlResponse π where
  key : Key

/-- What the eviction of directory infos needs: for which keys the current edge is the beacon, and
what the subclass does. -/
structure CacheServer (σ π : Type) where
  parallelEvictionMaxVictimcnt : Nat
  currentIsBeacon : Key → Bool
  evictLocalDirectory : Key → Value → σ → σ × Bool
  getReqToEvictBeaconDirectory : Key → σ → σ
  processRspToEvictBeaconDirectory : DirectoryUpdateResponse π → Value → σ → σ × Bool

/-- Evict the directory infos of victims; the targets are their keys. -/
def parallelEvictDirectory (server : CacheServer σ π) (victimValue : Key → Value) :
    ParallelRequest Key (DirectoryUpdateResponse π) σ where
  maxVictimcnt := some server.parallelEvictionMaxVictimcnt
  isCurrent := server.currentIsBeacon
  mayRequest := fun _ => true
  handleCurrent := fun key acc => server.evictLocalDirectory key (victimValue key) acc
  getRequest := server.getReqToEvictBeaconDirectory
  target := fun r => r.key
  accepts := fun _ => true
  process := fun r acc => server.processRspToEvictBeaconDirectory r (victimValue r.key) acc
  processesUnmatched := false
  measuresFirstRtt := true
  unmatched_single := Bool.noConfusion

/-! ## Victim fetching -/

/-- The victims fetched for a placement. -/
structure ExtraVictims where
  extraPeredgeVictimCacheinfos : List (Nat × List VictimCacheinfo) := []
  extraPerkeyVictimDirinfoset : List (Key × DirinfoSet) := []

namespace ExtraVictims

def pushVictimCacheinfos (extra : ExtraVictims) (edgeIdx : Nat) (victims : List VictimCacheinfo) :
    ExtraVictims :=
  { extra with
    extraPeredgeVictimCacheinfos := extra.extraPeredgeVictimCacheinfos ++ [(edgeIdx, victims)] }

def pushDirinfoSet (extra : ExtraVictims) (pair : Key × DirinfoSet) : ExtraVictims :=
  { extra with extraPerkeyVictimDirinfoset := extra.extraPerkeyVictimDirinfoset ++ [pair] }

/-- Dirinfo sets of the local directory table; a key may be there already. -/
def pushDirinfoSetIfMissing (extra : ExtraVictims) (pair : Key × DirinfoSet) : ExtraVictims :=
  if (KeyedList.find Prod.fst pair.1 extra.extraPerkeyVictimDirinfoset).isNone then
    extra.pushDirinfoSet pair
  else extra

end ExtraVictims

/-- What the victim fetching of an edge needs: its view of the directory, and what its cache answers
when it is asked for victims of the required size (whether there is one, and which). -/
structure VictimFetcher where
  nodeIdx : Nat
  view : CooperationView
  fetchVictimCacheinfosForRequiredSize : Bool × List VictimCacheinfo

namespace VictimFetcher

/-- The victims of the edge itself. -/
def fetchLocalVictims (e : VictimFetcher) (extra : ExtraVictims) : Option ExtraVictims := do
  require (e.fetchVictimCacheinfosForRequiredSize.1 = true)
  let beaconed ← e.view.getLocalBeaconedVictimsFromCacheinfos e.nodeIdx
    e.fetchVictimCacheinfosForRequiredSize.2
  return beaconed.foldl ExtraVictims.pushDirinfoSetIfMissing
    (extra.pushVictimCacheinfos e.nodeIdx e.fetchVictimCacheinfosForRequiredSize.2)

/-- The victims of a response. That the keys of its dirinfo sets are new is a `MYASSERT`, which is
checked only if the configuration asks for it, and not here: a key may be there twice. -/
def processVictimFetchResponse (e : VictimFetcher) (r : ControlResponse VictimSyncset)
    (extra : ExtraVictims) : Option ExtraVictims := do
  require (r.content.isComplete = true)
  let (victims, isCompleteVictims) := r.content.getLocalSyncedVictims
  require (isCompleteVictims = true)
  let (dirinfoSets, isCompleteDirinfoSets) := r.content.getLocalBeaconedVictims
  require (isCompleteDirinfoSets = true)
  require (∀ pair ∈ dirinfoSets, pair.2.isComplete = true)
  let beaconed ← e.view.getLocalBeaconedVictimsFromCacheinfos e.nodeIdx victims
  require (∀ pair ∈ beaconed, pair.2.isComplete = true)
  return beaconed.foldl ExtraVictims.pushDirinfoSetIfMissing
    (dirinfoSets.foldl ExtraVictims.pushDirinfoSet
      (extra.pushVictimCacheinfos r.sourceIndex victims))

end VictimFetcher

/-- Fetch victims from edges; the targets are the edges. -/
def parallelFetchVictims (e : VictimFetcher) :
    ParallelRequest Nat (ControlResponse VictimSyncset) ExtraVictims where
  maxVictimcnt := none
  isCurrent := fun t => decide (t = e.nodeIdx)
  mayRequest := fun t => decide (t ≠ e.nodeIdx) || (e.fetchLocalVictims {}).isSome
  handleCurrent := fun _ extra => ((e.fetchLocalVictims extra).getD extra, false)
  getRequest := fun _ extra => extra
  target := fun r => r.sourceIndex
  accepts := fun r => (e.processVictimFetchResponse r {}).isSome
  process := fun r extra => ((e.processVictimFetchResponse r extra).getD extra, false)
  processesUnmatched := false
  measuresFirstRtt := false
  unmatched_single := fun _ => rfl

/-! ## Robustness -/

/-- The four functions: in every run in which no second response of an acknowledged target of the
batch is received (and what a round asserts about its targets is true of them), no assertion of the
loop fails, the part of each target is processed at most once, and the function returns with the
edge running only when the part of each target was processed. -/
theorem parallel_functions_robust (edge : EdgeWrapper σ π) (server : CacheServer σ π)
    (fetcher : VictimFetcher) :
    (∀ key, (parallelInvalidateCacheCopies edge key).Robust) ∧
      (∀ key, (parallelNotifyEdgesToFinishBlock edge key).Robust) ∧
      (∀ victimValue, (parallelEvictDirectory server victimValue).Robust) ∧
      (parallelFetchVictims fetcher).Robust :=
  ⟨fun _ => ParallelRequest.robust _, fun _ => ParallelRequest.robust _,
    fun _ => ParallelRequest.robust _, ParallelRequest.robust _⟩

/-- An edge without any work in its subclass. -/
def plainEdge : EdgeWrapper Unit Unit where
  nodeIdx := 0
  config := .onMachines 3 [[49]]
  cacheServerRecvreqAddr := fun edgeIdx => ⟨[49], UInt16.ofNat (4000 + edgeIdx)⟩
  getInvalidationRequest := fun _ _ acc => acc
  processInvalidationResponse := fun _ acc => acc
  getFinishBlockRequest := fun _ _ acc => acc
  processFinishBlockResponse := fun _ acc => acc

/-- The answer of an edge to an invalidation request. -/
def invalidated (edgeIdx : Nat) : ControlResponse Unit :=
  ⟨edgeIdx, plainEdge.cacheServerRecvreqAddr edgeIdx, ()⟩

/-- Two copies are invalidated; edge `1` is slow, is asked twice and answers twice. -/
def answerTwice : List (ParallelCall.Action (ControlResponse Unit)) :=
  [.advance, .advance, .timeout true, .advance, .answer 0 (invalidated 1),
    .answer 1 (invalidated 1), .recv 0]

/-- The second answer of an edge fails an assertion while another edge has not answered yet. -/
theorem second_answer_fails :
    ∃ tr c, Runs (ParallelCall.step (parallelInvalidateCacheCopies plainEdge ⟨[7]⟩) 5) anyAction
        (.initial [1, 2] ({}, ())) tr c ∧
      ParallelCall.Enabled (parallelInvalidateCacheCopies plainEdge ⟨[7]⟩) 5 c (.recv 0) ∧
      (ParallelCall.step (parallelInvalidateCacheCopies plainEdge ⟨[7]⟩) 5 c (.recv 0)).isNone =
        true := by
  have hexec : (exec (ParallelCall.step (parallelInvalidateCacheCopies plainEdge ⟨[7]⟩) 5) anyAction
      (.initial [1, 2] ({}, ())) answerTwice).any (fun c =>
        decide (c.loop.phase = .receiving 1) && decide (0 < c.responses.length) &&
        (ParallelCall.step (parallelInvalidateCacheCopies plainEdge ⟨[7]⟩) 5 c (.recv 0)).isNone) =
      true := by
    decide +kernel
  obtain ⟨tr, c, hrun, -, hc⟩ := exists_runs_of_any hexec
  simp only [Bool.and_eq_true, decide_eq_true_eq] at hc
  exact ⟨tr, c, hrun, ⟨⟨1, hc.1.1⟩, hc.1.2⟩, hc.2⟩

/-- A cache server that is the beacon of no key. -/
def plainServer : CacheServer Unit Unit where
  parallelEvictionMaxVictimcnt := 1000
  currentIsBeacon := fun _ => false
  evictLocalDirectory := fun _ _ acc => (acc, false)
  getReqToEvictBeaconDirectory := fun _ acc => acc
  processRspToEvictBeaconDirectory := fun _ _ acc => (acc, false)

/-- A response of an earlier call comes first; the request to edge `2` is lost and sent again after
a timeout. -/
def answerLate : List (ParallelCall.Action (ControlResponse Unit)) :=
  [.advance, .advance, .foreign 4 (invalidated 2), .recv 0, .advance, .answer 0 (invalidated 1),
    .recv 0, .loseRequest 0, .timeout true, .advance, .answer 0 (invalidated 2), .recv 0, .advance,
    .advance]

theorem parallel_functions_robust_twoCopies :
    ∃ tr c, Runs (ParallelCall.step (parallelInvalidateCacheCopies plainEdge ⟨[7]⟩) 5)
        (ParallelCall.Meets (parallelInvalidateCacheCopies plainEdge ⟨[7]⟩) 5)
        (.initial [1, 2] ({}, ())) tr c ∧
      ∀ t ∈ [1, 2], t ∈ c.loop.processed := by
  have hexec : (exec (ParallelCall.step (parallelInvalidateCacheCopies plainEdge ⟨[7]⟩) 5)
      (ParallelCall.Meets (parallelInvalidateCacheCopies plainEdge ⟨[7]⟩) 5)
      (.initial [1, 2] ({}, ())) answerLate).any (fun c =>
        decide (c.loop.phase = .returned false)) = true := by
    decide +kernel
  obtain ⟨tr, c, hrun, -, hc⟩ := exists_runs_of_any hexec
  exact ⟨tr, c, hrun, ((parallel_functions_robust plainEdge plainServer
    ⟨0, ⟨fun _ => 0, fun _ => []⟩, (false, [])⟩).1 ⟨[7]⟩ [1, 2] ({}, ()) 5 tr c (by decide)
    hrun).2.2.2 (of_decide_eq_true hc)⟩

end Covered.Edge
