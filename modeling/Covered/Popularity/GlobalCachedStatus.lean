import Covered.Cooperation.CooperationWrapper
import Covered.Popularity.PopularityAggregator

/-!
# The global-cached status that popularities are aggregated with

A beacon weights the popularity of a key by whether the key is cached by any edge. The flag reaches
the aggregation through several handlers: some take it from the operation on the directory table,
some read it anew, and those that follow a write take it for granted. The aggregation then counts a
key that is being admitted as cached.

A handler first operates on the directory table, under the lock of the key, and aggregates later, so
between the two the state of the beacon may change. `report` is the first part, with the flags that
are passed on; `updatePopularityAggregatorForAggregatedPopularity` is the second.
`tmpIsGlobalCached_exact_iff` says when the flag in use is exact.
-/

set_option autoImplicit false

namespace Covered.Popularity.GlobalCachedStatus

open Common Cooperation Lib.Checked Lib.Execution CooperationWrapper DirectoryTable
open ConcurrentHashtable
open PopularityAggregator

/-! ## From a handler to the aggregation -/

/-- The flags that a handler passes on to the popularity aggregation. -/
structure Report where
  isGlobalCached : Bool
  isSourceCached : Bool
deriving DecidableEq

/-- The handlers that aggregate a popularity. -/
inductive Handler
  | lookupByCacheServer (key : Key) (currentEdgeIdx draw : Nat)
  | lookupByBeaconServer (key : Key) (sourceEdgeIdx : Nat) (addr : NetworkAddr) (draw : Nat)
  | directoryEviction (key : Key) (sourceEdgeIdx : Nat) (dirinfo : DirectoryInfo)
  | acquireByCacheServer (key : Key) (currentEdgeIdx : Nat)
  | acquireByBeaconServer (key : Key) (sourceEdgeIdx : Nat) (addr : NetworkAddr)
  | release (key : Key) (sourceEdgeIdx : Nat) (senderDirinfo : DirectoryInfo)
  | writeWithoutLock (key : Key)
  | placementTriggerRequest (key : Key) (senderEdgeIdx : Nat)
  | placementTriggerForGetrsp (key : Key) (currentEdgeIdx : Nat)

namespace Handler

def key : Handler → Key
  | lookupByCacheServer key .. => key
  | lookupByBeaconServer key .. => key
  | directoryEviction key .. => key
  | acquireByCacheServer key .. => key
  | acquireByBeaconServer key .. => key
  | release key .. => key
  | writeWithoutLock key => key
  | placementTriggerRequest key _ => key
  | placementTriggerForGetrsp key _ => key

/-- The handlers after a write, which share the helper after the release of a write lock. -/
def isAfterWrite : Handler → Bool
  | release .. => true
  | writeWithoutLock _ => true
  | placementTriggerRequest .. => true
  | _ => false

end Handler

def isGlobalAndSourceCached (w : CooperationWrapper) (key : Key) (sourceEdgeIdx : Nat) :
    Option Report := do
  let isSourceCached ← DirectoryTable.isCachedByGivenEdge w.directoryTable key sourceEdgeIdx
  return ⟨DirectoryTable.isGlobalCached w.directoryTable key, isSourceCached⟩

/-- The helper after the release of a write lock says that the key is cached. -/
def afterWritelockReleaseHelperInternal (isSourceCached : Bool) : Report := ⟨true, isSourceCached⟩

/-- A key that needs no write lock is not cached. -/
def afterWritelockAcquire (reply : CooperationWrapper.AcquireReply) : Report :=
  ⟨decide (reply.lockResult ≠ .kNoneed), reply.isSourceCached⟩

def afterDirectoryLookup (reply : LookupReply) : Report :=
  ⟨reply.isGlobalCached, reply.isSourceCached⟩

/-- The operation of a handler on the directory table, and what it passes on. -/
def report (w : CooperationWrapper) : Handler → Option (CooperationWrapper × Report)
  | .lookupByCacheServer key current draw => do
      let reply ← w.lookupDirectoryTableByCacheServer key current draw
      return (w, afterDirectoryLookup reply)
  | .lookupByBeaconServer key source addr draw => do
      let (w', reply) ← w.lookupDirectoryTableByBeaconServer key source addr draw
      return (w', afterDirectoryLookup reply)
  | .directoryEviction key source dirinfo => do
      let (w', reply) ← w.updateDirectoryTable key source false dirinfo
      return (w', ⟨reply.isGlobalCached, false⟩)
  | .acquireByCacheServer key current => do
      let (w', reply) ← w.acquireLocalWritelockByCacheServer key current
      return (w', afterWritelockAcquire reply)
  | .acquireByBeaconServer key source addr => do
      let (w', reply) ← w.acquireLocalWritelockByBeaconServer key source addr
      return (w', afterWritelockAcquire reply)
  | .release key source senderDirinfo => do
      let (w', reply) ← w.releaseLocalWritelock key source senderDirinfo
      return (w', afterWritelockReleaseHelperInternal reply.isSourceCached)
  | .writeWithoutLock _ => some (w, afterWritelockReleaseHelperInternal false)
  | .placementTriggerRequest key sender => do
      -- the flag that is read for the key is not passed on
      let status ← isGlobalAndSourceCached w key sender
      return (w, afterWritelockReleaseHelperInternal status.isSourceCached)
  | .placementTriggerForGetrsp key current => do
      let status ← isGlobalAndSourceCached w key current
      return (w, status)

def isKeyBeingAdmitted (a : PopularityAggregator) (key : Key) : Bool :=
  (a.perkeyPreservedEdgeset.lookup key).isSome

/-- The flag for the admission benefit and the placement calculation. -/
def tmpIsGlobalCached (a : PopularityAggregator) (key : Key) (isGlobalCached : Bool) : Bool :=
  isGlobalCached || isKeyBeingAdmitted a key

/-- Aggregate a collected popularity. The placement calculation, of which the best edgeset is empty
if there is no best placement, is a parameter. -/
def updatePopularityAggregatorForAggregatedPopularity (a : PopularityAggregator)
    (calcReward : PopularityAggregator.CalcReward) (key : Key) (sourceEdgeIdx : Nat)
    (collected : CollectedPopularity) (r : Report) (needPlacementCalculation : Bool)
    (placementCalculation : PopularityAggregator → Bool → Edgeset) :
    Option PopularityAggregator := do
  let isGlobalCached := tmpIsGlobalCached a key r.isGlobalCached
  let (a', _) ← a.updateAggregatedUncachedPopularity calcReward key sourceEdgeIdx collected
    isGlobalCached r.isSourceCached
  if (needPlacementCalculation && (collected.isTracked && !r.isSourceCached)) = true ∧
      placementCalculation a' isGlobalCached ≠ [] then
    a'.updatePreservedEdgesetForPlacement calcReward key
      (placementCalculation a' isGlobalCached) isGlobalCached
  else return a'

/-! ## The beacon -/

/-- The directory and the popularities of a beacon. -/
structure Beacon where
  wrapper : CooperationWrapper
  aggregator : PopularityAggregator

/-- What the threads of a beacon do, each under its locks. -/
inductive Action
  | cooperate (op : CooperationWrapper.Operation)
  | aggregate (calcReward : PopularityAggregator.CalcReward) (key : Key) (sourceEdgeIdx : Nat)
      (collected : CollectedPopularity) (r : Report) (needPlacementCalculation : Bool)
      (placementCalculation : PopularityAggregator → Bool → Edgeset)
  | clearPreservedEdgesetAfterAdmission (key : Key) (sourceEdgeIdx : Nat)

def step (s : Beacon) : Action → Option (Beacon × Unit)
  | .cooperate op => (s.wrapper.step op).map fun (w', _) => ({ s with wrapper := w' }, ())
  | .aggregate calcReward key source collected r need calculation =>
      (updatePopularityAggregatorForAggregatedPopularity s.aggregator calcReward key source
        collected r need calculation).map fun a' => ({ s with aggregator := a' }, ())
  | .clearPreservedEdgesetAfterAdmission key source =>
      (s.aggregator.clearPreservedEdgesetAfterAdmission key source).map fun a' =>
        ({ s with aggregator := a' }, ())

def initial (edgecnt popularityAggregationCapacityBytes topkEdgecnt : Nat) : Beacon :=
  ⟨.initial, .create edgecnt popularityAggregationCapacityBytes topkEdgecnt⟩

/-! ## What holds in every state -/

/-- The invariants of both parts. -/
structure Invariant (s : Beacon) : Prop where
  wrapper : s.wrapper.Invariant
  aggregator : s.aggregator.Invariant

section Steps

variable {s t : Beacon} {edgecnt capacityBytes topkEdgecnt : Nat} {tr : List (Action × Unit)}

theorem invariant_aggregate {a a' : PopularityAggregator} (hinv : a.Invariant)
    {calcReward : PopularityAggregator.CalcReward} {key : Key} {sourceEdgeIdx : Nat}
    {collected : CollectedPopularity} {r : Report} {need : Bool}
    {calculation : PopularityAggregator → Bool → Edgeset}
    (h : updatePopularityAggregatorForAggregatedPopularity a calcReward key sourceEdgeIdx collected
      r need calculation = some a') : a'.Invariant := by
  simp only [updatePopularityAggregatorForAggregatedPopularity, bind_eq_some_iff] at h
  obtain ⟨⟨a₁, hint⟩, hupdate, h⟩ := h
  have hinv₁ := invariant_updateAggregatedUncachedPopularity hinv hupdate
  split at h
  · next hplace =>
    exact invariant_updatePreservedEdgesetForPlacement hinv₁ hplace.2 h
  · cases h
    exact hinv₁

theorem Invariant.step (hinv : Invariant s) {action : Action} {u : Unit}
    (h : step s action = some (t, u)) : Invariant t := by
  cases action with
  | cooperate op =>
    obtain ⟨⟨w', reply⟩, hop, heq⟩ := Option.map_eq_some_iff.1 h
    cases heq
    exact ⟨invariant_step hinv.wrapper hop, hinv.aggregator⟩
  | aggregate =>
    obtain ⟨a', ha', heq⟩ := Option.map_eq_some_iff.1 h
    cases heq
    exact ⟨hinv.wrapper, invariant_aggregate hinv.aggregator ha'⟩
  | clearPreservedEdgesetAfterAdmission key source =>
    obtain ⟨a', ha', heq⟩ := Option.map_eq_some_iff.1 h
    cases heq
    exact ⟨hinv.wrapper,
      invariant_clearPreservedEdgesetAfterAdmission hinv.aggregator ha'⟩

theorem Invariant.of_runs (hinv : Invariant s) (h : Runs GlobalCachedStatus.step anyAction s tr t) :
    Invariant t :=
  h.invariant hinv fun hinv _ hstep => hinv.step hstep

theorem invariant_initial : Invariant (initial edgecnt capacityBytes topkEdgecnt) :=
  ⟨CooperationWrapper.invariant_initial, invariant_create ..⟩

end Steps

/-! ## The flag of each handler -/

section Reports

variable {w w' : CooperationWrapper} {key : Key} {r : Report}

/-- A key has an entry iff an edge is listed in it. -/
theorem isGlobalCached_iff_listed (hinv : w.Invariant) :
    isGlobalCached w.directoryTable key = true ↔ ∃ edge, w.Listed key edge := by
  constructor
  · intro h
    obtain ⟨entry, hentry⟩ := Option.isSome_iff_exists.1 h
    obtain ⟨d, hd⟩ := List.exists_mem_of_ne_nil _
      (keys_ne_nil (hinv.no_empty key entry hentry))
    exact ⟨d.targetEdgeIdx, (listed_iff_mem hentry).2 hd⟩
  · rintro ⟨edge, h⟩
    obtain ⟨entry, hentry⟩ := exists_entry_of_listed h
    exact Option.isSome_iff_exists.2 ⟨entry, hentry⟩

variable {source draw : Nat}

theorem isGlobalCached_lookup {table : DirectoryTable} {found : DirectoryLookup}
    (h : lookup table key source draw = some found) :
    found.isGlobalCached = isGlobalCached table key := by
  rw [isGlobalCached, isExist]
  unfold lookup constCallIfExist at h
  cases hfind : table.find key with
  | none =>
    simp only [hfind, Option.map_none, Option.some.injEq] at h
    rw [← h]
    rfl
  | some entry =>
    simp only [hfind, Option.map_some, bind_eq_some_iff] at h
    obtain ⟨nonSource, -, dirinfoSet, -, size, -, h⟩ := h
    split at h
    · simp only [bind_eq_some_iff] at h
      obtain ⟨directoryInfo, -, -, -, h⟩ := h
      cases h
      rfl
    · cases h
      rfl

/-- A lookup tells whether the key has an entry, also while it is being written. -/
theorem isGlobalCached_lookupDirectoryTable {flag : Bool} {reply : LookupReply}
    (h : w.lookupDirectoryTable key source draw flag = some reply) :
    reply.isGlobalCached = isGlobalCached w.directoryTable key := by
  simp only [lookupDirectoryTable, bind_eq_some_iff] at h
  obtain ⟨found, hfound, cached, -, h⟩ := h
  cases h
  unfold lookupUnlessBeingWritten at hfound
  split at hfound
  · exact isGlobalCached_lookup hfound
  · cases hfound
    rfl

/-- An eviction tells whether the key has an entry after it. -/
theorem isGlobalCached_update {table table' : DirectoryTable} {dirinfo : DirectoryInfo}
    {metadata : DirectoryMetadata} {isGlobal : Bool} {requirement : MetadataUpdateRequirement}
    (h : update table key false dirinfo metadata =
      some (table', isGlobal, requirement)) :
    isGlobal = isGlobalCached table' key := by
  rw [isGlobalCached, isExist, (update_remove_spec h).1,
    Function.update_self]
  simp only [update, Bool.false_eq_true, if_false, bind_eq_some_iff] at h
  obtain ⟨⟨t, result⟩, hcall, h⟩ := h
  rcases callIfExist_spec hcall with
    ⟨hfind, rfl, -⟩ | ⟨entry, entry', isErase, r, hfind, hcalled, rfl, -⟩
  · cases h
    rw [hfind]
    rfl
  · cases hcalled
    cases h
    rw [hfind, Option.bind_some, evictEntry]
    split
    · next hzero => simp [hzero]
    · next hzero => simp [hzero]

/-- A write needs a lock iff the key has an entry, which an acquisition keeps. -/
theorem isGlobalCached_acquire (hinv : w.Invariant)
    {cas : BlockTracker → Option (BlockTracker × Bool)} {reply : CooperationWrapper.AcquireReply}
    (h : w.acquireLocalWritelock key source cas = some (w', reply)) :
    decide (reply.lockResult ≠ .kNoneed) = isGlobalCached w'.directoryTable key := by
  rcases acquireLocalWritelock_spec hinv h with
    ⟨hglobal, rfl, hresult⟩ | ⟨-, -, hresult, -, entry, -, hfind⟩ | ⟨hglobal, -, hresult, htable⟩
  · rw [hresult, hglobal]
    rfl
  · rw [hresult, isGlobalCached, isExist, hfind,
      Function.update_self]
    rfl
  · rw [hresult, htable, hglobal]
    rfl

/-- The flag of a handler is that of the key after the operation, or after a write it is `true`;
then the operation lists the same edges as before. -/
theorem report_spec (hinv : w.Invariant) {handler : Handler} (h : report w handler = some (w', r)) :
    w'.Invariant ∧ if handler.isAfterWrite = true then
        r.isGlobalCached = true ∧ ∀ edge, w'.Listed handler.key edge ↔ w.Listed handler.key edge
      else r.isGlobalCached = isGlobalCached w'.directoryTable handler.key := by
  cases handler with
  | lookupByCacheServer key current draw =>
    simp only [report, bind_eq_some_iff] at h
    obtain ⟨reply, hlookup, h⟩ := h
    cases h
    exact ⟨hinv, isGlobalCached_lookupDirectoryTable hlookup⟩
  | lookupByBeaconServer key source addr draw =>
    simp only [report, bind_eq_some_iff] at h
    obtain ⟨⟨w₁, reply⟩, hlookup, h⟩ := h
    cases h
    refine ⟨invariant_lookupByBeaconServer hinv hlookup, ?_⟩
    simp only [lookupDirectoryTableByBeaconServer, bind_eq_some_iff] at hlookup
    obtain ⟨⟨tracker, flag⟩, -, reply', hlookup', heq⟩ := hlookup
    cases heq
    exact isGlobalCached_lookupDirectoryTable hlookup'
  | directoryEviction key source dirinfo =>
    simp only [report, bind_eq_some_iff] at h
    obtain ⟨⟨w₁, reply⟩, hupdate, h⟩ := h
    cases h
    obtain ⟨metadata, htable, -⟩ := updateDirectoryTable_cases hupdate
    exact ⟨invariant_updateDirectoryTable hinv hupdate,
      isGlobalCached_update htable⟩
  | acquireByCacheServer key current =>
    simp only [report, bind_eq_some_iff] at h
    obtain ⟨⟨w₁, reply⟩, hacquire, h⟩ := h
    cases h
    exact ⟨invariant_acquireByCacheServer hinv hacquire,
      isGlobalCached_acquire hinv hacquire⟩
  | acquireByBeaconServer key source addr =>
    simp only [report, bind_eq_some_iff] at h
    obtain ⟨⟨w₁, reply⟩, hacquire, h⟩ := h
    cases h
    exact ⟨invariant_acquireByBeaconServer hinv hacquire,
      isGlobalCached_acquire hinv hacquire⟩
  | release key source senderDirinfo =>
    simp only [report, bind_eq_some_iff] at h
    obtain ⟨⟨w₁, reply⟩, hrelease, h⟩ := h
    cases h
    exact ⟨invariant_release hinv hrelease, rfl, fun edge =>
      listed_release hinv hrelease⟩
  | writeWithoutLock key =>
    cases h
    exact ⟨hinv, rfl, fun _ => Iff.rfl⟩
  | placementTriggerRequest key sender =>
    simp only [report, bind_eq_some_iff] at h
    obtain ⟨status, -, h⟩ := h
    cases h
    exact ⟨hinv, rfl, fun _ => Iff.rfl⟩
  | placementTriggerForGetrsp key current =>
    simp only [report, isGlobalAndSourceCached, bind_eq_some_iff] at h
    obtain ⟨status, ⟨cached, -, hstatus⟩, h⟩ := h
    cases hstatus
    cases h
    exact ⟨hinv, rfl⟩

theorem isKeyBeingAdmitted_iff {a : PopularityAggregator} (hinv : a.Invariant) :
    isKeyBeingAdmitted a key = true ↔ ∃ edge, a.isPreservedEdge key edge = some true := by
  unfold isKeyBeingAdmitted isPreservedEdge
  cases hset : a.perkeyPreservedEdgeset.lookup key with
  | none => simp
  | some set =>
    -- a preserved edgeset without edges is removed
    obtain ⟨edge, hedge⟩ := List.mem_iff_getElem?.1 (hinv.some_edge key set hset)
    exact iff_of_true rfl ⟨edge, hedge⟩

end Reports

/-! ## Exactness -/

section Exactness

variable {s t : Beacon} {edgecnt capacityBytes topkEdgecnt : Nat} {tr tr' : List (Action × Unit)}

/-- In every state that a beacon reaches a handler operates on the directory, and any actions later
aggregates. The flag in use is exact, that is set iff the key had an entry after the operation or an
edge is preserved for it, iff this is so after a write: there an edge is listed for the key, or one
is preserved. -/
theorem tmpIsGlobalCached_exact_iff
    (h : Runs step anyAction (initial edgecnt capacityBytes topkEdgecnt) tr s)
    {handler : Handler} {w' : CooperationWrapper} {r : Report}
    (hreport : report s.wrapper handler = some (w', r))
    (hlater : Runs step anyAction { s with wrapper := w' } tr' t) :
    (tmpIsGlobalCached t.aggregator handler.key r.isGlobalCached = true ↔
      (∃ edge, w'.Listed handler.key edge) ∨
        ∃ edge, t.aggregator.isPreservedEdge handler.key edge = some true) ↔
    (handler.isAfterWrite = true → (∃ edge, s.wrapper.Listed handler.key edge) ∨
      ∃ edge, t.aggregator.isPreservedEdge handler.key edge = some true) := by
  have hs : Invariant s := invariant_initial.of_runs h
  obtain ⟨hw', hflag⟩ := report_spec hs.wrapper hreport
  have hs' : Invariant { s with wrapper := w' } := ⟨hw', hs.aggregator⟩
  have ht : Invariant t := hs'.of_runs hlater
  rw [tmpIsGlobalCached, Bool.or_eq_true, isKeyBeingAdmitted_iff ht.aggregator]
  split at hflag
  · next hwrite =>
    simp only [hflag.1, hflag.2, hwrite, true_or, true_iff, true_imp_iff]
  · next hwrite =>
    rw [hflag, isGlobalCached_iff_listed hw']
    exact iff_of_true Iff.rfl fun hafter => absurd hafter hwrite

/-- Edge 1 admits a key and writes it. -/
def admittedAndLocked (key : Key) : List Action :=
  [.cooperate (.updateDirectory key 1 true ⟨1⟩),
    .cooperate (.acquireByBeaconServer key 1 ⟨[10], 2000⟩)]

/-- While the key is locked a lookup is answered with its entry. -/
theorem tmpIsGlobalCached_exact_iff_locked :
    ∃ tr s w' r, Runs step anyAction (initial 3 1000 2) tr s ∧
      report s.wrapper (.lookupByCacheServer ⟨[7]⟩ 0 0) = some (w', r) ∧
      (tmpIsGlobalCached s.aggregator ⟨[7]⟩ r.isGlobalCached = true ↔
        (∃ edge, w'.Listed ⟨[7]⟩ edge) ∨
          ∃ edge, s.aggregator.isPreservedEdge ⟨[7]⟩ edge = some true) := by
  have hexec : (exec step anyAction (initial 3 1000 2) (admittedAndLocked ⟨[7]⟩)).any
      (fun s => (report s.wrapper (.lookupByCacheServer ⟨[7]⟩ 0 0)).isSome) = true := by
    decide +kernel
  obtain ⟨tr, s, hrun, -, hs⟩ := exists_runs_of_any hexec
  obtain ⟨⟨w', r⟩, hreport⟩ := Option.isSome_iff_exists.1 hs
  refine ⟨tr, s, w', r, hrun, hreport, ?_⟩
  refine (tmpIsGlobalCached_exact_iff (t := { s with wrapper := w' }) hrun hreport .nil).2 ?_
  intro hwrite
  cases hwrite

/-- The holder evicts the key while it writes it: the release takes the key for cached. -/
theorem release_after_eviction :
    ∃ tr s w' r, Runs step anyAction (initial 3 1000 2) tr s ∧
      report s.wrapper (.release ⟨[7]⟩ 1 ⟨1⟩) = some (w', r) ∧
      tmpIsGlobalCached s.aggregator ⟨[7]⟩ r.isGlobalCached = true ∧
      (¬ ∃ edge, w'.Listed ⟨[7]⟩ edge) ∧
      ¬ ∃ edge, s.aggregator.isPreservedEdge ⟨[7]⟩ edge = some true := by
  have hexec : (exec step anyAction (initial 3 1000 2)
      (admittedAndLocked ⟨[7]⟩ ++ [.cooperate (.updateDirectory ⟨[7]⟩ 1 false ⟨1⟩)])).any
      (fun s => (report s.wrapper (.release ⟨[7]⟩ 1 ⟨1⟩)).any (fun p =>
        tmpIsGlobalCached s.aggregator ⟨[7]⟩ p.2.isGlobalCached &&
          !DirectoryTable.isGlobalCached p.1.directoryTable ⟨[7]⟩) &&
        !isKeyBeingAdmitted s.aggregator ⟨[7]⟩) = true := by
    decide +kernel
  obtain ⟨tr, s, hrun, -, hs⟩ := exists_runs_of_any hexec
  have hinv : Invariant s := invariant_initial.of_runs hrun
  rw [Bool.and_eq_true] at hs
  obtain ⟨⟨w', r⟩, hreport, hr⟩ := (Option.any_eq_true _ _).1 hs.1
  rw [Bool.and_eq_true] at hr
  refine ⟨tr, s, w', r, hrun, hreport, hr.1, ?_, ?_⟩
  · rw [← isGlobalCached_iff_listed (report_spec hinv.wrapper hreport).1]
    simpa using hr.2
  · rw [← isKeyBeingAdmitted_iff hinv.aggregator]
    simpa using hs.2

end Exactness

end Covered.Popularity.GlobalCachedStatus
