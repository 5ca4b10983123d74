import Covered.Edge.BandwidthAccounting

/-!
# Message flows

Which messages the functions of COVERED send, await, count and answer. A function is a script under
its own name, and calls are concatenations. What the caches, directories, locks and popularities
say at a test of the source is a decision: a record of decisions tells which branches a handler
takes. No relation between the decisions of a handler is assumed, so the scripts include those of
all runs of the source.
-/

set_option autoImplicit false

namespace Covered.Edge.MessageFlows

open Edge.BandwidthAccounting Message

variable {edgecnt : Nat}

/-! ## Exchanges -/

/-- One request and the wait for its response. -/
def exchange (request : MessageType) (dest : Thread edgecnt) (response : MessageType)
    (link : Link) : Script edgecnt :=
  [.beginExchange, .send request dest, .receive [response], .countResponse link, .endExchange]

/-- Requests of one type to several threads, and as many responses. -/
def parallelExchange (request : MessageType) (dests : List (Thread edgecnt))
    (response : MessageType) : Script edgecnt :=
  .beginExchange :: dests.map (Command.send request) ++
    dests.flatMap (fun _ => [.receive [response], .countResponse .crossEdge]) ++ [.endExchange]

/-! ## Edge wrapper -/

/-- The edge itself is invalidated in place; without copies nothing is done. -/
def parallelInvalidateCacheCopies (current : Fin edgecnt) (allDirinfo : List (Fin edgecnt)) :
    Script edgecnt :=
  if allDirinfo = [] then []
  else
    parallelExchange .coveredInvalidationRequest
      ((allDirinfo.filter (· ≠ current)).map .invalidationProcessor) .coveredInvalidationResponse

def parallelNotifyEdgesToFinishBlock (blockedEdges : List (Thread edgecnt)) : Script edgecnt :=
  if blockedEdges = [] then []
  else parallelExchange .coveredFinishBlockRequest blockedEdges .coveredFinishBlockResponse

/-- The edge to notify of a change between one and several copies, if there is such a change. -/
abbrev MetadataUpdateRequirement (edgecnt : Nat) := Option (Fin edgecnt)

def processMetadataUpdateRequirement (current : Fin edgecnt) :
    MetadataUpdateRequirement edgecnt → Script edgecnt
  | none => []
  | some notifyEdgeIdx =>
      if notifyEdgeIdx = current then []
      else [.notify .coveredMetadataUpdateRequest (.metadataUpdateProcessor notifyEdgeIdx)]

/-- The directory of a placement at the edge itself is admitted at once, the object goes to the
placement processor. -/
def nonblockNotifyForPlacement (current : Fin edgecnt) (bestPlacementEdgeset : List (Fin edgecnt))
    (metadataUpdateRequirement : MetadataUpdateRequirement edgecnt) : Script edgecnt :=
  (bestPlacementEdgeset.filter (· ≠ current)).map (fun edge =>
    .notify .coveredBgplacePlacementNotifyRequest (.placementProcessor edge)) ++
  if current ∈ bestPlacementEdgeset then
    processMetadataUpdateRequirement current metadataUpdateRequirement ++
      [.pushLocalCacheAdmission]
  else []

def nonblockDataFetchFromCloudForPlacement : Script edgecnt :=
  [.notify .coveredBgfetchGlobalGetRequest .dataServer]

/-! ## Placement calculation -/

/-- What placement calculation for a key finds, and what the deployment of its result finds. -/
structure PlacementDecision (edgecnt : Nat) where
  isTrackedBySourceEdgeNode : Bool
  bestPlacementVictimFetchEdgeset : List (Fin edgecnt)
  hasBestPlacement : Bool
  bestPlacementEdgeset : List (Fin edgecnt)
  isLocalCachedAndValid : Bool
  validDirectory : Option (Fin edgecnt)
  admissionRequirement : MetadataUpdateRequirement edgecnt

def parallelFetchVictims (current : Fin edgecnt) (victimFetchEdgeset : List (Fin edgecnt)) :
    Script edgecnt :=
  parallelExchange .coveredVictimFetchRequest
    ((victimFetchEdgeset.filter (· ≠ current)).map .victimFetchProcessor)
    .coveredVictimFetchResponse

/-- Victims are fetched only if some edge does not track enough of them. -/
def placementCalculation (current : Fin edgecnt) (d : PlacementDecision edgecnt) :
    Script edgecnt :=
  if d.bestPlacementVictimFetchEdgeset = [] then []
  else parallelFetchVictims current d.bestPlacementVictimFetchEdgeset

def nonblockDataFetchForPlacement (current : Fin edgecnt) (senderIsBeacon : Bool)
    (d : PlacementDecision edgecnt) : Script edgecnt :=
  if d.isLocalCachedAndValid then
    nonblockNotifyForPlacement current d.bestPlacementEdgeset d.admissionRequirement
  else if senderIsBeacon then []
  else
    match d.validDirectory with
    | some targetEdgeIdx =>
        [.notify .coveredBgfetchRedirectedGetRequest (.redirectionProcessor targetEdgeIdx)]
    | none => []

def updatePopularityAggregatorForAggregatedPopularity (current : Fin edgecnt)
    (needPlacementCalculation senderIsBeacon : Bool) (d : PlacementDecision edgecnt) :
    Script edgecnt :=
  if needPlacementCalculation && d.isTrackedBySourceEdgeNode then
    placementCalculation current d ++
      if d.hasBestPlacement then nonblockDataFetchForPlacement current senderIsBeacon d else []
  else []

/-- The output `need_hybrid_fetching` of the function above. -/
def needHybridFetching (needPlacementCalculation senderIsBeacon : Bool)
    (d : PlacementDecision edgecnt) : Bool :=
  needPlacementCalculation && d.isTrackedBySourceEdgeNode && d.hasBestPlacement &&
    !d.isLocalCachedAndValid && (senderIsBeacon || d.validDirectory.isNone)

def afterDirectoryEvictionHelper (current : Fin edgecnt) (senderIsBeacon isBackground : Bool)
    (requirement : MetadataUpdateRequirement edgecnt) (d : PlacementDecision edgecnt) :
    Script edgecnt :=
  processMetadataUpdateRequirement current requirement ++
    updatePopularityAggregatorForAggregatedPopularity current (!isBackground) senderIsBeacon d

/-! ## Cache server -/

def admitBeaconDirectory (beacon : Fin edgecnt) (isBackground : Bool) : Script edgecnt :=
  if isBackground then
    exchange .coveredBgplaceDirectoryUpdateRequest (.beaconServer beacon)
      .coveredBgplaceDirectoryUpdateResponse .crossEdge
  else
    exchange .coveredDirectoryUpdateRequest (.beaconServer beacon)
      .coveredDirectoryUpdateResponse .crossEdge

/-- The request depends on whether the edge itself is a placement, and the only one. -/
def notifyBeaconForPlacementAfterHybridFetch (current beacon : Fin edgecnt)
    (bestPlacementEdgeset : List (Fin edgecnt)) : Script edgecnt :=
  if current ∉ bestPlacementEdgeset then
    exchange .coveredFghybridHybridFetchedRequest (.beaconServer beacon)
      .coveredFghybridHybridFetchedResponse .crossEdge
  else if bestPlacementEdgeset.filter (· ≠ current) ≠ [] then
    exchange .coveredFghybridDirectoryAdmitRequest (.beaconServer beacon)
      .coveredFghybridDirectoryAdmitResponse .crossEdge ++ [.pushLocalCacheAdmission]
  else
    exchange .coveredDirectoryUpdateRequest (.beaconServer beacon)
      .coveredDirectoryUpdateResponse .crossEdge ++ [.pushLocalCacheAdmission]

def evictLocalDirectory (current : Fin edgecnt) (isBackground : Bool)
    (requirement : MetadataUpdateRequirement edgecnt) (d : PlacementDecision edgecnt) :
    Script edgecnt :=
  afterDirectoryEvictionHelper current true isBackground requirement d ++
    if needHybridFetching (!isBackground) true d then
      nonblockNotifyForPlacement current d.bestPlacementEdgeset d.admissionRequirement
    else []

/-- A victim whose beacon is the edge itself, or another edge. -/
inductive EvictedVictim (edgecnt : Nat) where
  | localBeacon (requirement : MetadataUpdateRequirement edgecnt) (d : PlacementDecision edgecnt)
  | remoteBeacon (beacon : Fin edgecnt)

/-- The response for a victim of another beacon; with hybrid fetching it has an edgeset. -/
structure EvictionResponse (edgecnt : Nat) where
  beacon : Fin edgecnt
  bestPlacementEdgeset : Option (List (Fin edgecnt))

/-- The victims in the order in which they are processed, and the responses in the order in which
they arrive. -/
structure EvictionBatch (edgecnt : Nat) where
  victims : List (EvictedVictim edgecnt)
  responses : List (EvictionResponse edgecnt)

def processRspToEvictBeaconDirectory (current : Fin edgecnt) (r : EvictionResponse edgecnt) :
    Script edgecnt :=
  match r.bestPlacementEdgeset with
  | some edgeset => notifyBeaconForPlacementAfterHybridFetch current r.beacon edgeset
  | none => []

def evictionRequest (current : Fin edgecnt) (isBackground : Bool) :
    EvictedVictim edgecnt → Script edgecnt
  | .localBeacon requirement d => evictLocalDirectory current isBackground requirement d
  | .remoteBeacon beacon =>
      if isBackground then
        [.send .coveredBgplaceDirectoryUpdateRequest (.beaconServer beacon)]
      else [.send .coveredDirectoryUpdateRequest (.beaconServer beacon)]

def evictionResponse (current : Fin edgecnt) (isBackground : Bool)
    (r : EvictionResponse edgecnt) : Script edgecnt :=
  if isBackground then
    [.receive [.coveredBgplaceDirectoryUpdateResponse], .countResponse .crossEdge]
  else if r.bestPlacementEdgeset.isSome then
    [.receive [.coveredFghybridDirectoryEvictResponse], .countResponse .crossEdge] ++
      processRspToEvictBeaconDirectory current r
  else [.receive [.coveredDirectoryUpdateResponse], .countResponse .crossEdge]

def partialParallelEvictDirectory (current : Fin edgecnt) (isBackground : Bool)
    (batch : EvictionBatch edgecnt) : Script edgecnt :=
  batch.victims.flatMap (evictionRequest current isBackground) ++
    batch.responses.flatMap (evictionResponse current isBackground)

/-- All batches of an eviction have one sequence number. -/
def parallelEvictDirectory (current : Fin edgecnt) (isBackground : Bool)
    (batches : List (EvictionBatch edgecnt)) : Script edgecnt :=
  .beginExchange :: batches.flatMap (partialParallelEvictDirectory current isBackground) ++
    [.endExchange]

/-- What is evicted from the cache itself needs no message. -/
def evictForCapacity (current : Fin edgecnt) (isBackground : Bool)
    (batches : List (EvictionBatch edgecnt)) : Script edgecnt :=
  parallelEvictDirectory current isBackground batches

/-! ## Cache server worker: get requests -/

/-- The three responses to a directory lookup request. -/
inductive LookupResponse (edgecnt : Nat) where
  | normal
  | fastpath
  | fghybrid (bestPlacementEdgeset : List (Fin edgecnt))

def LookupResponse.messageType : LookupResponse edgecnt → MessageType
  | .normal => .coveredDirectoryLookupResponse
  | .fastpath => .coveredFastpathDirectoryLookupResponse
  | .fghybrid _ => .coveredFghybridDirectoryLookupResponse

/-- One round of the loop that waits for a valid directory. -/
inductive LookupRound (edgecnt : Nat) where
  | localDirectory (d : PlacementDecision edgecnt) (isBeingWritten : Bool)
      (validDirectory : Option (Fin edgecnt))
  /-- With `blocked`, the key is being written, and so many requests to finish blocking for other
  keys come before the one for it. -/
  | beaconDirectory (response : LookupResponse edgecnt) (blocked : Option Nat)
      (validDirectory : Option (Fin edgecnt))
  | cachedDirectory (target : Fin edgecnt)

def lookupLocalDirectory (current : Fin edgecnt) (d : PlacementDecision edgecnt) :
    Script edgecnt :=
  updatePopularityAggregatorForAggregatedPopularity current true true d

def lookupBeaconDirectory (beacon : Fin edgecnt) (response : LookupResponse edgecnt) :
    Script edgecnt :=
  exchange .coveredDirectoryLookupRequest (.beaconServer beacon) response.messageType .crossEdge

def redirectGetToTarget (target : Fin edgecnt) : Script edgecnt :=
  exchange .coveredRedirectedGetRequest (.redirectionProcessor target)
    .coveredRedirectedGetResponse .crossEdge

/-- The requests for other keys are counted and not answered. -/
def blockForWritesByInterruption (mismatches : Nat) : Script edgecnt :=
  (List.replicate mismatches
    [Command.receiveFinishBlockRequest, .countFinishBlockRequest]).flatten ++
    [.receiveFinishBlockRequest, .countFinishBlockRequest, .replyFinishBlockRequest]

def redirectIfValid : Option (Fin edgecnt) → Script edgecnt
  | some target => redirectGetToTarget target
  | none => []

def lookupRound (current beacon : Fin edgecnt) : LookupRound edgecnt → Script edgecnt
  | .localDirectory d isBeingWritten validDirectory =>
      lookupLocalDirectory current d ++
        if isBeingWritten then [] else redirectIfValid validDirectory
  | .beaconDirectory response blocked validDirectory =>
      lookupBeaconDirectory beacon response ++
        match blocked with
        | some mismatches => blockForWritesByInterruption mismatches
        | none => redirectIfValid validDirectory
  | .cachedDirectory target => redirectGetToTarget target

def fetchDataFromNeighbor (current beacon : Fin edgecnt) (rounds : List (LookupRound edgecnt)) :
    Script edgecnt :=
  rounds.flatMap (lookupRound current beacon)

/-- The edgeset for hybrid fetching that the rounds leave: a lookup overwrites it. -/
def hybridAfterRound (hybrid : Option (List (Fin edgecnt))) :
    LookupRound edgecnt → Option (List (Fin edgecnt))
  | .localDirectory d _ _ =>
      if needHybridFetching true true d then some d.bestPlacementEdgeset else none
  | .beaconDirectory (.fghybrid edgeset) _ _ => some edgeset
  | .beaconDirectory _ _ _ => none
  | .cachedDirectory _ => hybrid

def fetchDataFromCloud : Script edgecnt :=
  exchange .globalGetRequest .dataServer .globalGetResponse .edgeCloud

def tryToTriggerPlacementNotificationAfterHybridFetch (current beacon : Fin edgecnt)
    (bestPlacementEdgeset : List (Fin edgecnt))
    (requirement : MetadataUpdateRequirement edgecnt) : Script edgecnt :=
  if current = beacon then nonblockNotifyForPlacement current bestPlacementEdgeset requirement
  else notifyBeaconForPlacementAfterHybridFetch current beacon bestPlacementEdgeset

/-- Placement for a key that is tracked since its value was fetched: at the beacon itself, or
with a valid fast path hint whose calculation admits the object or not. -/
inductive GetrspPlacement (edgecnt : Nat) where
  | currentIsBeacon (d : PlacementDecision edgecnt)
  | fastPath (isAdmitted : Bool)
  | noPlacement

def tryToTriggerCachePlacementForGetrsp (current beacon : Fin edgecnt) :
    GetrspPlacement edgecnt → Script edgecnt
  | .currentIsBeacon d =>
      updatePopularityAggregatorForAggregatedPopularity current true true d ++
        if needHybridFetching true true d then
          nonblockNotifyForPlacement current d.bestPlacementEdgeset d.admissionRequirement
        else []
  | .fastPath isAdmitted =>
      if isAdmitted then admitBeaconDirectory beacon false ++ [.pushLocalCacheAdmission] else []
  | .noPlacement => []

def afterFetchingValue (current beacon : Fin edgecnt) (hybrid : Option (List (Fin edgecnt)))
    (requirement : MetadataUpdateRequirement edgecnt) (placement : GetrspPlacement edgecnt) :
    Script edgecnt :=
  (match hybrid with
    | some edgeset =>
        tryToTriggerPlacementNotificationAfterHybridFetch current beacon edgeset requirement
    | none => []) ++
    tryToTriggerCachePlacementForGetrsp current beacon placement

/-- The decisions for a get request of a client. -/
structure LocalGet (edgecnt : Nat) where
  beacon : Fin edgecnt
  isLocalCachedAndValid : Bool
  rounds : List (LookupRound edgecnt)
  isCooperativeCachedAndValid : Bool
  /-- The evictions after an invalid local copy has been updated. -/
  evictions : Option (List (EvictionBatch edgecnt))
  requirement : MetadataUpdateRequirement edgecnt
  placement : GetrspPlacement edgecnt

def processLocalGetRequest (current : Fin edgecnt) (d : LocalGet edgecnt) : Script edgecnt :=
  [.countRequest .clientEdge] ++
  (if d.isLocalCachedAndValid then [] else fetchDataFromNeighbor current d.beacon d.rounds) ++
  (if d.isLocalCachedAndValid || d.isCooperativeCachedAndValid then [] else fetchDataFromCloud) ++
  (match d.evictions with
    | some batches => evictForCapacity current false batches
    | none => []) ++
  afterFetchingValue current d.beacon
    (if d.isLocalCachedAndValid then none else d.rounds.foldl hybridAfterRound none)
    d.requirement d.placement ++
  [.reply .localGetResponse]

/-! ## Cache server worker: write requests -/

/-- One attempt to acquire the write lock. At the beacon itself a success has copies to
invalidate; elsewhere a failure blocks the worker. -/
inductive LockAttempt (edgecnt : Nat) where
  | localWritelock (allDirinfo : Option (List (Fin edgecnt)))
  | beaconWritelock (blocked : Option Nat)

def acquireAttempt (current beacon : Fin edgecnt) : LockAttempt edgecnt → Script edgecnt
  | .localWritelock (some allDirinfo) => parallelInvalidateCacheCopies current allDirinfo
  | .localWritelock none => []
  | .beaconWritelock blocked =>
      exchange .coveredAcquireWritelockRequest (.beaconServer beacon)
        .coveredAcquireWritelockResponse .crossEdge ++
      match blocked with
      | some mismatches => blockForWritesByInterruption mismatches
      | none => []

def acquireWritelock (current beacon : Fin edgecnt) (attempts : List (LockAttempt edgecnt)) :
    Script edgecnt :=
  attempts.flatMap (acquireAttempt current beacon)

def writeDataToCloud (isPut : Bool) : Script edgecnt :=
  if isPut then exchange .globalPutRequest .dataServer .globalPutResponse .edgeCloud
  else exchange .globalDelRequest .dataServer .globalDelResponse .edgeCloud

def releaseLocalWritelock (current : Fin edgecnt) (d : PlacementDecision edgecnt) :
    Script edgecnt :=
  updatePopularityAggregatorForAggregatedPopularity current true true d ++
    if needHybridFetching true true d then
      nonblockNotifyForPlacement current d.bestPlacementEdgeset d.admissionRequirement
    else []

/-- The response is processed, with the notification of the beacon, before it is counted. -/
def releaseBeaconWritelock (current beacon : Fin edgecnt) :
    Option (List (Fin edgecnt)) → Script edgecnt
  | none =>
      exchange .coveredReleaseWritelockRequest (.beaconServer beacon)
        .coveredReleaseWritelockResponse .crossEdge
  | some edgeset =>
      [.beginExchange, .send .coveredReleaseWritelockRequest (.beaconServer beacon),
        .receive [.coveredFghybridReleaseWritelockResponse]] ++
      notifyBeaconForPlacementAfterHybridFetch current beacon edgeset ++
      [.countResponse .crossEdge, .endExchange]

inductive LockRelease (edgecnt : Nat) where
  | localWritelock (d : PlacementDecision edgecnt) (blockedEdges : List (Thread edgecnt))
  | beaconWritelock (hybrid : Option (List (Fin edgecnt)))

def releaseWritelock (current beacon : Fin edgecnt) : LockRelease edgecnt → Script edgecnt
  | .localWritelock d blockedEdges =>
      releaseLocalWritelock current d ++ parallelNotifyEdgesToFinishBlock blockedEdges
  | .beaconWritelock hybrid => releaseBeaconWritelock current beacon hybrid

/-- Placement after the write of a key without copies. -/
inductive WritePlacement (edgecnt : Nat) where
  | localTrigger (d : PlacementDecision edgecnt)
  | beaconTrigger (hybrid : Option (List (Fin edgecnt)))

/-- The wait for the response to a placement trigger request. The response is processed and
released, and counted nowhere. -/
def placementTrigger (beacon : Fin edgecnt) (hybrid : Option (List (Fin edgecnt))) :
    Script edgecnt :=
  [.beginExchange, .send .coveredPlacementTriggerRequest (.beaconServer beacon),
    .receive [if hybrid.isSome then .coveredFghybridPlacementTriggerResponse
      else .coveredPlacementTriggerResponse],
    .releaseResponse, .endExchange]

/-- After a write with a lock nothing is done here. -/
def afterWritingValue (current beacon : Fin edgecnt)
    (requirement : MetadataUpdateRequirement edgecnt) :
    Option (WritePlacement edgecnt) → Script edgecnt
  | none => []
  | some (.localTrigger d) =>
      updatePopularityAggregatorForAggregatedPopularity current true true d ++
        if needHybridFetching true true d then
          tryToTriggerPlacementNotificationAfterHybridFetch current beacon d.bestPlacementEdgeset
            requirement
        else []
  | some (.beaconTrigger hybrid) =>
      placementTrigger beacon hybrid ++
        match hybrid with
        | some edgeset =>
            tryToTriggerPlacementNotificationAfterHybridFetch current beacon edgeset requirement
        | none => []

/-- The decisions for a put or delete request of a client. A lock is released if it was needed,
and placement is triggered if it was not. -/
structure LocalWrite (edgecnt : Nat) where
  beacon : Fin edgecnt
  attempts : List (LockAttempt edgecnt)
  evictions : List (EvictionBatch edgecnt)
  release : Option (LockRelease edgecnt)
  requirement : MetadataUpdateRequirement edgecnt
  placement : Option (WritePlacement edgecnt)

def processLocalWriteRequest (current : Fin edgecnt) (isPut : Bool) (d : LocalWrite edgecnt) :
    Script edgecnt :=
  [.countRequest .clientEdge] ++
  acquireWritelock current d.beacon d.attempts ++
  writeDataToCloud isPut ++
  (if isPut then evictForCapacity current false d.evictions else []) ++
  (match d.release with
    | some release => releaseWritelock current d.beacon release
    | none => []) ++
  afterWritingValue current d.beacon d.requirement d.placement ++
  [.reply (if isPut then .localPutResponse else .localDelResponse)]

/-! ## Processors of the cache server -/

def processRedirectedGetRequest (messageType : MessageType) : Script edgecnt :=
  [.countRequest .crossEdge,
    .reply (if messageType = .coveredBgfetchRedirectedGetRequest then
      .coveredBgfetchRedirectedGetResponse else .coveredRedirectedGetResponse)]

def processInvalidationRequest : Script edgecnt :=
  [.countRequest .crossEdge, .reply .coveredInvalidationResponse]

def processVictimFetchRequest : Script edgecnt :=
  [.countRequest .crossEdge, .reply .coveredVictimFetchResponse]

def processMetadataUpdateRequest : Script edgecnt :=
  [.countRequest .crossEdge, .updateBackgroundCounter, .addBackgroundEvents]

def processPlacementNotifyRequest (current beacon : Fin edgecnt)
    (evictions : List (EvictionBatch edgecnt)) : Script edgecnt :=
  [.countRequest .crossEdge] ++ admitBeaconDirectory beacon true ++
    evictForCapacity current true evictions ++ [.updateBackgroundCounter, .addBackgroundEvents]

def processLocalCacheAdmission (current : Fin edgecnt)
    (evictions : List (EvictionBatch edgecnt)) : Script edgecnt :=
  evictForCapacity current true evictions ++ [.updateBackgroundCounter, .addBackgroundEvents]

/-! ## Beacon server -/

def processDirectoryLookupRequest (current : Fin edgecnt) (d : PlacementDecision edgecnt)
    (isFastPathHintValid : Bool) : Script edgecnt :=
  [.countRequest .crossEdge] ++
  updatePopularityAggregatorForAggregatedPopularity current true false d ++
  [.embedBackgroundCounterIfNotEmpty,
    .reply (if needHybridFetching true false d then .coveredFghybridDirectoryLookupResponse
      else if isFastPathHintValid then .coveredFastpathDirectoryLookupResponse
      else .coveredDirectoryLookupResponse)]

/-- The decisions for a directory update request; the edgeset is the one in the request. -/
structure DirectoryUpdate (edgecnt : Nat) where
  isAdmit : Bool
  requirement : MetadataUpdateRequirement edgecnt
  placement : PlacementDecision edgecnt
  extraPlacementEdgeset : List (Fin edgecnt)
  admissionRequirement : MetadataUpdateRequirement edgecnt

def updateDirectory (current : Fin edgecnt) (isBackground : Bool) (d : DirectoryUpdate edgecnt) :
    Script edgecnt :=
  if d.isAdmit then processMetadataUpdateRequirement current d.requirement
  else afterDirectoryEvictionHelper current false isBackground d.requirement d.placement

/-- The four types of requests that update a directory or bring the result of a hybrid fetch. -/
def processReqToUpdateLocalDirectory (current : Fin edgecnt) (messageType : MessageType)
    (d : DirectoryUpdate edgecnt) : Script edgecnt :=
  if messageType = .coveredBgplaceDirectoryUpdateRequest then updateDirectory current true d
  else if messageType = .coveredFghybridHybridFetchedRequest then
    nonblockNotifyForPlacement current d.extraPlacementEdgeset d.admissionRequirement
  else if messageType = .coveredFghybridDirectoryAdmitRequest then
    processMetadataUpdateRequirement current d.requirement ++
      nonblockNotifyForPlacement current d.extraPlacementEdgeset d.admissionRequirement
  else updateDirectory current false d

def getRspToUpdateLocalDirectory (messageType : MessageType) (d : DirectoryUpdate edgecnt) :
    MessageType :=
  if messageType = .coveredBgplaceDirectoryUpdateRequest then
    .coveredBgplaceDirectoryUpdateResponse
  else if messageType = .coveredFghybridHybridFetchedRequest then
    .coveredFghybridHybridFetchedResponse
  else if messageType = .coveredFghybridDirectoryAdmitRequest then
    .coveredFghybridDirectoryAdmitResponse
  else if !d.isAdmit && needHybridFetching true false d.placement then
    .coveredFghybridDirectoryEvictResponse
  else .coveredDirectoryUpdateResponse

def processDirectoryUpdateRequest (current : Fin edgecnt) (messageType : MessageType)
    (d : DirectoryUpdate edgecnt) : Script edgecnt :=
  [.countRequest .crossEdge] ++ processReqToUpdateLocalDirectory current messageType d ++
    [.embedBackgroundCounterIfNotEmpty, .reply (getRspToUpdateLocalDirectory messageType d)]

/-- With a lock all copies are invalidated. -/
def processAcquireWritelockRequest (current : Fin edgecnt)
    (allDirinfo : Option (List (Fin edgecnt))) : Script edgecnt :=
  [.countRequest .crossEdge, .embedBackgroundCounterIfNotEmpty] ++
  (match allDirinfo with
    | some copies => parallelInvalidateCacheCopies current copies
    | none => []) ++
  [.reply .coveredAcquireWritelockResponse]

def processReleaseWritelockRequest (current : Fin edgecnt) (d : PlacementDecision edgecnt)
    (blockedEdges : List (Thread edgecnt)) : Script edgecnt :=
  [.countRequest .crossEdge] ++
  updatePopularityAggregatorForAggregatedPopularity current true false d ++
  [.embedBackgroundCounterIfNotEmpty] ++
  parallelNotifyEdgesToFinishBlock blockedEdges ++
  [.reply (if needHybridFetching true false d then .coveredFghybridReleaseWritelockResponse
    else .coveredReleaseWritelockResponse)]

/-- The background counter is not embedded into these responses. -/
def processPlacementTriggerRequest (current : Fin edgecnt) (d : PlacementDecision edgecnt) :
    Script edgecnt :=
  [.countRequest .crossEdge] ++
  updatePopularityAggregatorForAggregatedPopularity current true false d ++
  [.reply (if needHybridFetching true false d then .coveredFghybridPlacementTriggerResponse
    else .coveredPlacementTriggerResponse)]

def processRspToRedirectGetForPlacement (current : Fin edgecnt) (isCooperativeHit : Bool)
    (bestPlacementEdgeset : List (Fin edgecnt))
    (requirement : MetadataUpdateRequirement edgecnt) : Script edgecnt :=
  [.countResponse .crossEdge, .updateBackgroundCounter, .addBackgroundEvents] ++
  if isCooperativeHit then nonblockNotifyForPlacement current bestPlacementEdgeset requirement
  else nonblockDataFetchFromCloudForPlacement

def processRspToAccessCloudForPlacement (current : Fin edgecnt)
    (bestPlacementEdgeset : List (Fin edgecnt))
    (requirement : MetadataUpdateRequirement edgecnt) : Script edgecnt :=
  [.countResponse .edgeCloud, .updateBackgroundCounter, .addBackgroundEvents] ++
    nonblockNotifyForPlacement current bestPlacementEdgeset requirement

/-! ## Cloud and clients -/

def globalRequests : List MessageType :=
  [.globalGetRequest, .globalPutRequest, .globalDelRequest, .coveredBgfetchGlobalGetRequest]

def processGlobalRequest (messageType : MessageType) : Script edgecnt :=
  [.countRequest .edgeCloud,
    .reply (if messageType = .globalGetRequest then .globalGetResponse
      else if messageType = .globalPutRequest then .globalPutResponse
      else if messageType = .globalDelRequest then .globalDelResponse
      else .coveredBgfetchGlobalGetResponse)]

/-- The requests of a client. -/
inductive WorkloadItem where
  | get
  | put
  | del
deriving DecidableEq

def WorkloadItem.request : WorkloadItem → MessageType
  | .get => .localGetRequest
  | .put => .localPutRequest
  | .del => .localDelRequest

def WorkloadItem.response : WorkloadItem → MessageType
  | .get => .localGetResponse
  | .put => .localPutResponse
  | .del => .localDelResponse

/-- A client worker issues an item to its closest edge and processes the response. -/
def issueItemToEdge (item : WorkloadItem) (worker : Thread edgecnt) : Script edgecnt :=
  exchange item.request worker item.response .clientEdge ++ [.updateBandwidthUsage]

/-! ## Handlers -/

/-- The handlers of received messages, with their decisions. -/
inductive Handling (edgecnt : Nat) where
  | localGet (d : LocalGet edgecnt)
  | localWrite (d : LocalWrite edgecnt)
  | redirectedGet
  | invalidation
  | victimFetch
  | metadataUpdate
  | placementNotify (beacon : Fin edgecnt) (evictions : List (EvictionBatch edgecnt))
  | directoryLookup (d : PlacementDecision edgecnt) (isFastPathHintValid : Bool)
  | directoryUpdate (d : DirectoryUpdate edgecnt)
  | acquireWritelock (allDirinfo : Option (List (Fin edgecnt)))
  | releaseWritelock (d : PlacementDecision edgecnt) (blockedEdges : List (Thread edgecnt))
  | placementTrigger (d : PlacementDecision edgecnt)
  | rspToRedirectGet (isCooperativeHit : Bool) (bestPlacementEdgeset : List (Fin edgecnt))
      (requirement : MetadataUpdateRequirement edgecnt)
  | rspToAccessCloud (bestPlacementEdgeset : List (Fin edgecnt))
      (requirement : MetadataUpdateRequirement edgecnt)

namespace Handling

/-- The types of the messages for a handler. -/
def messageTypes : Handling edgecnt → List MessageType
  | .localGet _ => [.localGetRequest]
  | .localWrite _ => [.localPutRequest, .localDelRequest]
  | .redirectedGet => [.coveredRedirectedGetRequest, .coveredBgfetchRedirectedGetRequest]
  | .invalidation => [.coveredInvalidationRequest]
  | .victimFetch => [.coveredVictimFetchRequest]
  | .metadataUpdate => [.coveredMetadataUpdateRequest]
  | .placementNotify _ _ => [.coveredBgplacePlacementNotifyRequest]
  | .directoryLookup _ _ => [.coveredDirectoryLookupRequest]
  | .directoryUpdate _ =>
      [.coveredBgplaceDirectoryUpdateRequest, .coveredFghybridHybridFetchedRequest,
        .coveredFghybridDirectoryAdmitRequest, .coveredDirectoryUpdateRequest]
  | .acquireWritelock _ => [.coveredAcquireWritelockRequest]
  | .releaseWritelock _ _ => [.coveredReleaseWritelockRequest]
  | .placementTrigger _ => [.coveredPlacementTriggerRequest]
  | .rspToRedirectGet _ _ _ => [.coveredBgfetchRedirectedGetResponse]
  | .rspToAccessCloud _ _ => [.coveredBgfetchGlobalGetResponse]

/-- The threads on which a handler runs. -/
def runsOn : Handling edgecnt → Role → Bool
  | .localGet _, .cacheServerWorker _ => true
  | .localWrite _, .cacheServerWorker _ => true
  | .redirectedGet, .redirectionProcessor => true
  | .invalidation, .invalidationProcessor => true
  | .victimFetch, .victimFetchProcessor => true
  | .metadataUpdate, .metadataUpdateProcessor => true
  | .placementNotify _ _, .placementProcessor => true
  | .directoryLookup _ _, .beaconServer => true
  | .directoryUpdate _, .beaconServer => true
  | .acquireWritelock _, .beaconServer => true
  | .releaseWritelock _ _, .beaconServer => true
  | .placementTrigger _, .beaconServer => true
  | .rspToRedirectGet _ _ _, .beaconServer => true
  | .rspToAccessCloud _ _, .beaconServer => true
  | _, _ => false

def script (current : Fin edgecnt) (messageType : MessageType) : Handling edgecnt → Script edgecnt
  | .localGet d => processLocalGetRequest current d
  | .localWrite d => processLocalWriteRequest current (messageType = .localPutRequest) d
  | .redirectedGet => processRedirectedGetRequest messageType
  | .invalidation => processInvalidationRequest
  | .victimFetch => processVictimFetchRequest
  | .metadataUpdate => processMetadataUpdateRequest
  | .placementNotify beacon evictions => processPlacementNotifyRequest current beacon evictions
  | .directoryLookup d isFastPathHintValid =>
      processDirectoryLookupRequest current d isFastPathHintValid
  | .directoryUpdate d => processDirectoryUpdateRequest current messageType d
  | .acquireWritelock allDirinfo => processAcquireWritelockRequest current allDirinfo
  | .releaseWritelock d blockedEdges => processReleaseWritelockRequest current d blockedEdges
  | .placementTrigger d => processPlacementTriggerRequest current d
  | .rspToRedirectGet isCooperativeHit bestPlacementEdgeset requirement =>
      processRspToRedirectGetForPlacement current isCooperativeHit bestPlacementEdgeset requirement
  | .rspToAccessCloud bestPlacementEdgeset requirement =>
      processRspToAccessCloudForPlacement current bestPlacementEdgeset requirement

end Handling

end Covered.Edge.MessageFlows
