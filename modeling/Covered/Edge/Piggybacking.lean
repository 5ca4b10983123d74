import Covered.Edge.EdgeConfig
import Covered.Victim.TrackerOperations

/-!
# Piggybacked victim syncsets

An edge sends its victims to other edges inside the messages of the cooperation protocol. Each
function that prepares such a message takes a syncset for one edge from the victim tracker, which
spends a sequence number for this edge, and the message is pushed to an address. A function spends
the sequence number well if the message carries the syncset and its address belongs to the edge for
which the number was spent.

`spentWell_iff` is that all functions do so but two: the request to invalidate a copy does not carry
its syncset, and the request to finish a block takes the edge from the address of a worker, which
is another edge for most workers. `seqnums_consecutive` is what a receiver observes.

An address is given by the edge and the socket it belongs to. A message is pushed again after a
timeout by calling the function again, or with the same syncset; only the first push is modelled.
-/

set_option autoImplicit false

namespace Covered.Edge.Piggybacking

open Common Victim Lib.Checked Lib.Execution VictimTracker EdgeConfig

/-! ## Messages -/

inductive MessageType
  | directoryLookupRequest
  | directoryLookupResponse
  | fghybridDirectoryLookupResponse
  | fastpathDirectoryLookupResponse
  | directoryUpdateRequest
  | directoryUpdateResponse
  | bgplaceDirectoryUpdateRequest
  | bgplaceDirectoryUpdateResponse
  | fghybridHybridFetchedRequest
  | fghybridHybridFetchedResponse
  | fghybridDirectoryAdmitRequest
  | fghybridDirectoryAdmitResponse
  | fghybridDirectoryEvictResponse
  | acquireWritelockRequest
  | acquireWritelockResponse
  | releaseWritelockRequest
  | releaseWritelockResponse
  | fghybridReleaseWritelockResponse
  | placementTriggerRequest
  | placementTriggerResponse
  | fghybridPlacementTriggerResponse
  | redirectedGetRequest
  | redirectedGetResponse
  | bgfetchRedirectedGetRequest
  | bgfetchRedirectedGetResponse
  | bgplacePlacementNotifyRequest
  | invalidationRequest
  | finishBlockRequest
  | finishBlockResponse
deriving DecidableEq

/-- A message of an edge, without the parts that have nothing to do with the syncset. -/
structure Message where
  messageType : MessageType
  sourceIndex : Nat
  victimSyncset : Option VictimSyncset

/-- A request of another edge that is answered. -/
structure Request where
  messageType : MessageType
  sourceIndex : Nat

/-- The sockets of an edge that messages of other edges are pushed to. -/
inductive Endpoint
  | beaconServerRecvreq (edgeIdx : Nat)
  | cacheServerRecvreq (edgeIdx : Nat)
  | cacheServerWorkerRecvreq (edgeIdx workerIdx : Nat)
  /-- The source address of a request, at which the edge of the request waits for the response. -/
  | recvrsp (edgeIdx : Nat)

/-- The edge that an address belongs to. -/
def Endpoint.edgeIdx : Endpoint → Nat
  | .beaconServerRecvreq edgeIdx => edgeIdx
  | .cacheServerRecvreq edgeIdx => edgeIdx
  | .cacheServerWorkerRecvreq edgeIdx _ => edgeIdx
  | .recvrsp edgeIdx => edgeIdx

/-- A message with the address it is pushed to. -/
structure Pushed where
  message : Message
  dst : Endpoint

/-! ## The functions that prepare messages -/

/-- What is left of a function that prepares a message: from the cache margin and the victim tracker
of the edge to the tracker and the message. -/
abbrev Issue := Nat → VictimTracker → Option (VictimTracker × Message)

/-- The edge that sends, with what its functions read. -/
structure Sender where
  nodeIdx : Nat
  config : EdgeConfig
  percacheserverWorkercnt : Nat
  getBeaconEdgeIdx : Key → Nat
  /-- Machines have different addresses. -/
  machines_nodup : config.edgeMachineIpstrs.Nodup

namespace Sender

/-- The syncset for an edge. An index out of range is undefined in the source; here it aborts. -/
def accessVictimTrackerForLocalVictimSyncset (e : Sender) (dstEdgeIdxForCompression : Nat)
    (cacheMarginBytes : Nat) (t : VictimTracker) : Option (VictimTracker × VictimSyncset) := do
  require (e.nodeIdx < e.config.edgecnt ∧ dstEdgeIdxForCompression < e.config.edgecnt)
  t.getLocalVictimSyncsetForSynchronization dstEdgeIdxForCompression cacheMarginBytes

/-- A message with the syncset for an edge. -/
def messageFor (e : Sender) (dstEdgeIdxForCompression : Nat) (messageType : MessageType)
    (cacheMarginBytes : Nat) (t : VictimTracker) : Option (VictimTracker × Message) := do
  let (t', victimSyncset) ← e.accessVictimTrackerForLocalVictimSyncset dstEdgeIdxForCompression
    cacheMarginBytes t
  return (t', ⟨messageType, e.nodeIdx, some victimSyncset⟩)

/-! ### Beacon server -/

def getRspToLookupLocalDirectory (e : Sender) (request : Request)
    (needHybridFetching isValidFastPathHint : Bool) : Issue :=
  e.messageFor request.sourceIndex
    (if needHybridFetching then .fghybridDirectoryLookupResponse
      else if isValidFastPathHint then .fastpathDirectoryLookupResponse
      else .directoryLookupResponse)

/-- The response to a directory update; only a foreground eviction is answered with hybrid
fetching. -/
def getRspToUpdateLocalDirectory (e : Sender) (request : Request) (needHybridFetching : Bool)
    (cacheMarginBytes : Nat) (t : VictimTracker) : Option (VictimTracker × Message) :=
  match request.messageType with
  | .bgplaceDirectoryUpdateRequest => do
      require (needHybridFetching = false)
      e.messageFor request.sourceIndex .bgplaceDirectoryUpdateResponse cacheMarginBytes t
  | .fghybridHybridFetchedRequest => do
      require (needHybridFetching = false)
      e.messageFor request.sourceIndex .fghybridHybridFetchedResponse cacheMarginBytes t
  | .fghybridDirectoryAdmitRequest => do
      require (needHybridFetching = false)
      e.messageFor request.sourceIndex .fghybridDirectoryAdmitResponse cacheMarginBytes t
  | .directoryUpdateRequest =>
      e.messageFor request.sourceIndex
        (if needHybridFetching then .fghybridDirectoryEvictResponse else .directoryUpdateResponse)
        cacheMarginBytes t
  | _ => none

def getRspToAcquireLocalWritelock (e : Sender) (request : Request) : Issue :=
  e.messageFor request.sourceIndex .acquireWritelockResponse

def getRspToReleaseLocalWritelock (e : Sender) (request : Request) (needHybridFetching : Bool) :
    Issue :=
  e.messageFor request.sourceIndex
    (if needHybridFetching then .fghybridReleaseWritelockResponse else .releaseWritelockResponse)

/-- The response to a placement trigger. -/
def processPlacementTriggerRequestForCovered (e : Sender) (request : Request)
    (needHybridFetching : Bool) : Issue :=
  e.messageFor request.sourceIndex
    (if needHybridFetching then .fghybridPlacementTriggerResponse else .placementTriggerResponse)

/-! ### Edge wrapper -/

/-- The request to invalidate a copy: a syncset is taken, but the message is made without it. -/
def getInvalidationRequest (e : Sender) (dstEdgeIdxForCompression : Nat) (cacheMarginBytes : Nat)
    (t : VictimTracker) : Option (VictimTracker × Message) := do
  require (dstEdgeIdxForCompression ≠ e.nodeIdx)
  let (t', _) ← e.accessVictimTrackerForLocalVictimSyncset dstEdgeIdxForCompression
    cacheMarginBytes t
  return (t', ⟨.invalidationRequest, e.nodeIdx, none⟩)

def getFinishBlockRequest (e : Sender) (dstEdgeIdxForCompression : Nat) (cacheMarginBytes : Nat)
    (t : VictimTracker) : Option (VictimTracker × Message) := do
  require (dstEdgeIdxForCompression ≠ e.nodeIdx)
  e.messageFor dstEdgeIdxForCompression .finishBlockRequest cacheMarginBytes t

/-- The request for a placement to the edge that has a copy. -/
def nonblockDataFetchForPlacement (e : Sender) (targetEdgeIdx : Nat) (cacheMarginBytes : Nat)
    (t : VictimTracker) : Option (VictimTracker × Message) := do
  require (targetEdgeIdx ≠ e.nodeIdx)
  e.messageFor targetEdgeIdx .bgfetchRedirectedGetRequest cacheMarginBytes t

/-- The notification of an edge that is to admit an object. -/
def nonblockNotifyForPlacement (e : Sender) (edgeIdx : Nat) (cacheMarginBytes : Nat)
    (t : VictimTracker) : Option (VictimTracker × Message) := do
  require (edgeIdx ≠ e.nodeIdx)
  e.messageFor edgeIdx .bgplacePlacementNotifyRequest cacheMarginBytes t

/-! ### Cache server -/

/-- A request about a key to its beacon, which must be another edge. -/
def requestToBeacon (e : Sender) (key : Key) (messageType : MessageType) (cacheMarginBytes : Nat)
    (t : VictimTracker) : Option (VictimTracker × Message) := do
  require (e.getBeaconEdgeIdx key ≠ e.nodeIdx)
  e.messageFor (e.getBeaconEdgeIdx key) messageType cacheMarginBytes t

def getReqToAdmitBeaconDirectory (e : Sender) (key : Key) (isBackground : Bool) : Issue :=
  e.requestToBeacon key
    (if isBackground then .bgplaceDirectoryUpdateRequest else .directoryUpdateRequest)

def getReqToEvictBeaconDirectory (e : Sender) (key : Key) (isBackground : Bool) : Issue :=
  e.requestToBeacon key
    (if isBackground then .bgplaceDirectoryUpdateRequest else .directoryUpdateRequest)

/-- The result of hybrid fetching, for the beacon; it is an admission if the edge itself is among
those to admit the object. -/
def notifyBeaconForPlacementAfterHybridFetch (e : Sender) (key : Key)
    (bestPlacementEdgeset : List Nat) : Issue :=
  e.requestToBeacon key
    (if e.nodeIdx ∉ bestPlacementEdgeset then .fghybridHybridFetchedRequest
      else if bestPlacementEdgeset.filter (fun i => i ≠ e.nodeIdx) ≠ [] then
        .fghybridDirectoryAdmitRequest
      else .directoryUpdateRequest)

/-- The response to a redirected request. -/
def getRspToRedirectGet (e : Sender) (request : Request) (cacheMarginBytes : Nat)
    (t : VictimTracker) : Option (VictimTracker × Message) :=
  match request.messageType with
  | .redirectedGetRequest =>
      e.messageFor request.sourceIndex .redirectedGetResponse cacheMarginBytes t
  | .bgfetchRedirectedGetRequest =>
      e.messageFor request.sourceIndex .bgfetchRedirectedGetResponse cacheMarginBytes t
  | _ => none

/-! ### Cache server worker -/

def getReqToLookupBeaconDirectory (e : Sender) (key : Key) : Issue :=
  e.requestToBeacon key .directoryLookupRequest

/-- A request redirected to the edge of a directory info, which must be another edge. -/
def getReqToRedirectGet (e : Sender) (dstEdgeIdxForCompression : Nat) (cacheMarginBytes : Nat)
    (t : VictimTracker) : Option (VictimTracker × Message) := do
  require (dstEdgeIdxForCompression ≠ e.nodeIdx)
  e.messageFor dstEdgeIdxForCompression .redirectedGetRequest cacheMarginBytes t

def getReqToAcquireBeaconWritelock (e : Sender) (key : Key) : Issue :=
  e.requestToBeacon key .acquireWritelockRequest

def getRspToFinishBlock (e : Sender) (request : Request) (cacheMarginBytes : Nat)
    (t : VictimTracker) : Option (VictimTracker × Message) := do
  require (request.messageType = .finishBlockRequest)
  e.messageFor request.sourceIndex .finishBlockResponse cacheMarginBytes t

def getReqToReleaseBeaconWritelock (e : Sender) (key : Key) : Issue :=
  e.requestToBeacon key .releaseWritelockRequest

/-- The placement trigger after a write of a key that no edge has a copy of. -/
def afterWritingValue (e : Sender) (key : Key) : Issue :=
  e.requestToBeacon key .placementTriggerRequest

end Sender

/-! ## Calls of the functions -/

/-- One call of a function above by the code that pushes its message. -/
inductive Call
  | getRspToLookupLocalDirectory (request : Request) (needHybridFetching isValidFastPathHint : Bool)
  | getRspToUpdateLocalDirectory (request : Request) (needHybridFetching : Bool)
  | getRspToAcquireLocalWritelock (request : Request)
  | getRspToReleaseLocalWritelock (request : Request) (needHybridFetching : Bool)
  | processPlacementTriggerRequestForCovered (request : Request) (needHybridFetching : Bool)
  /-- The copy of an edge is to be invalidated. -/
  | getInvalidationRequest (edgeIdx : Nat)
  /-- A worker of an edge is to be told that a write has finished. -/
  | getFinishBlockRequest (edgeIdx workerIdx : Nat)
  | nonblockDataFetchForPlacement (targetEdgeIdx : Nat)
  | nonblockNotifyForPlacement (edgeIdx : Nat)
  | getReqToAdmitBeaconDirectory (key : Key) (isBackground : Bool)
  | getReqToEvictBeaconDirectory (key : Key) (isBackground : Bool)
  | notifyBeaconForPlacementAfterHybridFetch (key : Key) (bestPlacementEdgeset : List Nat)
  | getRspToRedirectGet (request : Request)
  | getReqToLookupBeaconDirectory (key : Key)
  | getReqToRedirectGet (targetEdgeIdx : Nat)
  | getReqToAcquireBeaconWritelock (key : Key)
  | getRspToFinishBlock (request : Request)
  | getReqToReleaseBeaconWritelock (key : Key)
  | afterWritingValue (key : Key)

namespace Sender

/-- Push a message that has been prepared. -/
def push (dst : Endpoint) (prepared : Option (VictimTracker × Message)) :
    Option (VictimTracker × Pushed) :=
  prepared.map fun result => (result.1, ⟨result.2, dst⟩)

/-- Prepare the message of a call and push it. -/
def call (e : Sender) (cacheMarginBytes : Nat) (t : VictimTracker) :
    Call → Option (VictimTracker × Pushed)
  | .getRspToLookupLocalDirectory request needHybridFetching isValidFastPathHint =>
      push (.recvrsp request.sourceIndex) (e.getRspToLookupLocalDirectory request
        needHybridFetching isValidFastPathHint cacheMarginBytes t)
  | .getRspToUpdateLocalDirectory request needHybridFetching =>
      push (.recvrsp request.sourceIndex)
        (e.getRspToUpdateLocalDirectory request needHybridFetching cacheMarginBytes t)
  | .getRspToAcquireLocalWritelock request =>
      push (.recvrsp request.sourceIndex)
        (e.getRspToAcquireLocalWritelock request cacheMarginBytes t)
  | .getRspToReleaseLocalWritelock request needHybridFetching =>
      push (.recvrsp request.sourceIndex)
        (e.getRspToReleaseLocalWritelock request needHybridFetching cacheMarginBytes t)
  | .processPlacementTriggerRequestForCovered request needHybridFetching =>
      push (.recvrsp request.sourceIndex)
        (e.processPlacementTriggerRequestForCovered request needHybridFetching cacheMarginBytes t)
  | .getInvalidationRequest edgeIdx =>
      push (.cacheServerRecvreq edgeIdx) (e.getInvalidationRequest edgeIdx cacheMarginBytes t)
  | .getFinishBlockRequest edgeIdx workerIdx => do
      -- the worker was blocked under its address, from which its edge is computed
      require (workerIdx < e.percacheserverWorkercnt)
      let addr ← e.config.workerRecvreqAddr edgeIdx workerIdx e.percacheserverWorkercnt
      let dstEdgeIdx ← e.config.getEdgeIdxFromCacheServerWorkerRecvreqAddr addr
      push (.cacheServerWorkerRecvreq edgeIdx workerIdx)
        (e.getFinishBlockRequest dstEdgeIdx cacheMarginBytes t)
  | .nonblockDataFetchForPlacement targetEdgeIdx =>
      push (.cacheServerRecvreq targetEdgeIdx)
        (e.nonblockDataFetchForPlacement targetEdgeIdx cacheMarginBytes t)
  | .nonblockNotifyForPlacement edgeIdx =>
      push (.cacheServerRecvreq edgeIdx) (e.nonblockNotifyForPlacement edgeIdx cacheMarginBytes t)
  | .getReqToAdmitBeaconDirectory key isBackground =>
      push (.beaconServerRecvreq (e.getBeaconEdgeIdx key))
        (e.getReqToAdmitBeaconDirectory key isBackground cacheMarginBytes t)
  | .getReqToEvictBeaconDirectory key isBackground =>
      push (.beaconServerRecvreq (e.getBeaconEdgeIdx key))
        (e.getReqToEvictBeaconDirectory key isBackground cacheMarginBytes t)
  | .notifyBeaconForPlacementAfterHybridFetch key bestPlacementEdgeset =>
      push (.beaconServerRecvreq (e.getBeaconEdgeIdx key))
        (e.notifyBeaconForPlacementAfterHybridFetch key bestPlacementEdgeset cacheMarginBytes t)
  | .getRspToRedirectGet request =>
      push (.recvrsp request.sourceIndex) (e.getRspToRedirectGet request cacheMarginBytes t)
  | .getReqToLookupBeaconDirectory key =>
      push (.beaconServerRecvreq (e.getBeaconEdgeIdx key))
        (e.getReqToLookupBeaconDirectory key cacheMarginBytes t)
  | .getReqToRedirectGet targetEdgeIdx =>
      push (.cacheServerRecvreq targetEdgeIdx)
        (e.getReqToRedirectGet targetEdgeIdx cacheMarginBytes t)
  | .getReqToAcquireBeaconWritelock key =>
      push (.beaconServerRecvreq (e.getBeaconEdgeIdx key))
        (e.getReqToAcquireBeaconWritelock key cacheMarginBytes t)
  | .getRspToFinishBlock request =>
      push (.recvrsp request.sourceIndex) (e.getRspToFinishBlock request cacheMarginBytes t)
  | .getReqToReleaseBeaconWritelock key =>
      push (.beaconServerRecvreq (e.getBeaconEdgeIdx key))
        (e.getReqToReleaseBeaconWritelock key cacheMarginBytes t)
  | .afterWritingValue key =>
      push (.beaconServerRecvreq (e.getBeaconEdgeIdx key))
        (e.afterWritingValue key cacheMarginBytes t)

end Sender

/-! ## What a call spends -/

/-- The next sequence number for an edge. -/
def curSeqnum (t : VictimTracker) (edgeIdx : Nat) : Nat :=
  (t.peredgeVictimsyncMonitor edgeIdx).curSeqnum

/-- One sequence number is spent for an edge, and none for any other. -/
def Spends (t t' : VictimTracker) (edgeIdx : Nat) : Prop :=
  ∀ other, curSeqnum t' other = if other = edgeIdx then curSeqnum t other + 1 else curSeqnum t other

/-- The message carries the sequence number that is spent, and it is pushed to the edge for which it
is spent. -/
def SpentWell (t t' : VictimTracker) (p : Pushed) : Prop :=
  Spends t t' p.dst.edgeIdx ∧
    ∃ s, p.message.victimSyncset = some s ∧ s.seqnum = curSeqnum t p.dst.edgeIdx

/-- The call is not a request to invalidate a copy, and a worker to be told about a finished write
is the first of its edge, which is the first edge of its machine or has no other worker. -/
def Call.IsSound (e : Sender) : Call → Prop
  | .getInvalidationRequest _ => False
  | .getFinishBlockRequest edgeIdx workerIdx =>
      workerIdx = 0 ∧ (e.percacheserverWorkercnt = 1 ∨ e.config.localEdgeIdx edgeIdx = 0)
  | _ => True

section Spending

variable {e : Sender} {t t' : VictimTracker} {bytes dst : Nat}

theorem access_spec {s : VictimSyncset}
    (h : e.accessVictimTrackerForLocalVictimSyncset dst bytes t = some (t', s)) :
    Spends t t' dst ∧ s.seqnum = curSeqnum t dst := by
  rw [Sender.accessVictimTrackerForLocalVictimSyncset, require_bind_iff] at h
  obtain ⟨current, m, -, -, -, -, hreplace, rfl⟩ :=
    getLocalVictimSyncset_cases h.2
  obtain ⟨-, rfl, hfinal⟩ := VictimsyncMonitor.replacePrevVictimSyncset_cases hreplace
  constructor
  · intro other
    simp only [curSeqnum, setMonitor, Function.update_apply]
    split
    · next hsame => rw [hsame]
    · rfl
  · -- sent as it is, or compressed against the previous one
    rcases hfinal with ⟨-, rfl⟩ | ⟨prev, -, -, hcompress⟩
    · rfl
    · exact VictimSyncset.seqnum_compress hcompress

variable {messageType : MessageType}

theorem messageFor_spec {m : Message} (h : e.messageFor dst messageType bytes t = some (t', m)) :
    Spends t t' dst ∧ ∃ s, m.victimSyncset = some s ∧ s.seqnum = curSeqnum t dst := by
  simp only [Sender.messageFor, bind_eq_some_iff, pure_eq_some_iff, Prod.mk.injEq, Prod.exists] at h
  obtain ⟨t₁, s, haccess, rfl, rfl⟩ := h
  obtain ⟨hspends, hseqnum⟩ := access_spec haccess
  exact ⟨hspends, s, rfl, hseqnum⟩

/-- Two edges for which the same sequence number is spent are the same. -/
theorem Spends.unique {dst' : Nat} (h : Spends t t' dst) (h' : Spends t t' dst') : dst = dst' := by
  by_contra hne
  have hspent := h dst
  have hkept := h' dst
  rw [if_pos rfl] at hspent
  rw [if_neg hne] at hkept
  omega

variable {p : Pushed}

theorem push_eq_some {endpoint : Endpoint} {prepared : Option (VictimTracker × Message)}
    (h : Sender.push endpoint prepared = some (t', p)) :
    ∃ m, prepared = some (t', m) ∧ p = ⟨m, endpoint⟩ := by
  rw [Sender.push, Option.map_eq_some_iff] at h
  obtain ⟨⟨t₁, m⟩, hprepared, heq⟩ := h
  cases heq
  exact ⟨m, hprepared, rfl⟩

/-- A message prepared for the edge that its address belongs to is spent well. -/
theorem spentWell_push {endpoint : Endpoint}
    (h : Sender.push endpoint (e.messageFor endpoint.edgeIdx messageType bytes t) = some (t', p)) :
    SpentWell t t' p := by
  obtain ⟨m, hmessage, rfl⟩ := push_eq_some h
  exact messageFor_spec hmessage

theorem spentWell_requestToBeacon {key : Key}
    (h : Sender.push (.beaconServerRecvreq (e.getBeaconEdgeIdx key))
      (e.requestToBeacon key messageType bytes t) = some (t', p)) : SpentWell t t' p := by
  obtain ⟨m, hmessage, rfl⟩ := push_eq_some h
  rw [Sender.requestToBeacon, require_bind_iff] at hmessage
  exact messageFor_spec hmessage.2

/-- The edge computed from the address of a worker is its edge only for the first worker. -/
theorem getEdgeIdx_eq_iff {edgeIdx workerIdx dstEdgeIdx : Nat} {addr : NetworkAddr}
    (hworker : workerIdx < e.percacheserverWorkercnt)
    (haddr : e.config.workerRecvreqAddr edgeIdx workerIdx e.percacheserverWorkercnt = some addr)
    (hdst : e.config.getEdgeIdxFromCacheServerWorkerRecvreqAddr addr = some dstEdgeIdx) :
    dstEdgeIdx = edgeIdx ↔ (Call.getFinishBlockRequest edgeIdx workerIdx).IsSound e := by
  obtain ⟨hedge, hmachine, hhosted, hport, hverified⟩ := of_workerRecvreqAddr haddr
  have hcomputed := getEdgeIdx_workerRecvreqAddr e.machines_nodup hmachine hhosted
    hedge hworker hport hverified
  rw [haddr, Option.bind_some, hdst] at hcomputed
  have hplace := localEdgeIdx_add e.config edgeIdx
  split at hcomputed
  · cases hcomputed
  rw [Option.some.injEq] at hcomputed
  -- the place of the worker among the workers is taken for the place of the edge
  have hsame : dstEdgeIdx = edgeIdx ↔
      e.config.localEdgeIdx edgeIdx * e.percacheserverWorkercnt + workerIdx =
        e.config.localEdgeIdx edgeIdx := by omega
  rw [hsame, Call.IsSound]
  generalize e.config.localEdgeIdx edgeIdx = place
  generalize e.percacheserverWorkercnt = workercnt at hworker
  constructor
  · intro h
    have hle : place ≤ place * workercnt :=
      Nat.le_mul_of_pos_right _ (Nat.lt_of_le_of_lt (Nat.zero_le _) hworker)
    have hzero : workerIdx = 0 := by omega
    refine ⟨hzero, ?_⟩
    rw [hzero, Nat.add_zero] at h
    by_cases hplace0 : place = 0
    · exact .inr hplace0
    · exact .inl (Nat.eq_of_mul_eq_mul_left (Nat.pos_of_ne_zero hplace0) (by omega))
  · rintro ⟨rfl, rfl | rfl⟩
    · rw [Nat.mul_one, Nat.add_zero]
    · rw [Nat.zero_mul]

/-- A call that does not abort spends its sequence number well iff it is sound. -/
theorem spentWell_iff {c : Call} (h : e.call bytes t c = some (t', p)) :
    SpentWell t t' p ↔ c.IsSound e := by
  -- all calls but two are sound whatever their arguments are
  have hsound : SpentWell t t' p → c.IsSound e = True → (SpentWell t t' p ↔ c.IsSound e) :=
    fun hspent htrue => by rw [htrue]; exact iff_true_intro hspent
  cases c with
  | getInvalidationRequest edgeIdx =>
    refine ⟨fun hspent => ?_, False.elim⟩
    obtain ⟨m, hmessage, rfl⟩ := push_eq_some h
    simp only [Sender.getInvalidationRequest, bind_eq_some_iff, pure_eq_some_iff, Prod.mk.injEq,
      Prod.exists] at hmessage
    obtain ⟨-, -, t₁, s, -, -, rfl⟩ := hmessage
    obtain ⟨-, s, hnone, -⟩ := hspent
    cases hnone
  | getFinishBlockRequest edgeIdx workerIdx =>
    simp only [Sender.call, require_bind_iff] at h
    obtain ⟨hworker, h⟩ := h
    obtain ⟨addr, haddr, h⟩ := bind_eq_some_iff.1 h
    obtain ⟨dstEdgeIdx, hdst, h⟩ := bind_eq_some_iff.1 h
    obtain ⟨m, hmessage, rfl⟩ := push_eq_some h
    rw [Sender.getFinishBlockRequest, require_bind_iff] at hmessage
    obtain ⟨hspends, s, hs, hseqnum⟩ := messageFor_spec hmessage.2
    rw [← getEdgeIdx_eq_iff hworker haddr hdst]
    constructor
    · rintro ⟨hspent, -⟩
      exact hspends.unique hspent
    · rintro rfl
      exact ⟨hspends, s, hs, hseqnum⟩
  | getRspToLookupLocalDirectory request needHybridFetching isValidFastPathHint =>
    exact hsound (spentWell_push h) rfl
  | getRspToUpdateLocalDirectory request needHybridFetching =>
    refine hsound ?_ rfl
    obtain ⟨m, hmessage, rfl⟩ := push_eq_some h
    rw [Sender.getRspToUpdateLocalDirectory] at hmessage
    split at hmessage
    · exact messageFor_spec (require_bind_iff.1 hmessage).2
    · exact messageFor_spec (require_bind_iff.1 hmessage).2
    · exact messageFor_spec (require_bind_iff.1 hmessage).2
    · exact messageFor_spec hmessage
    · cases hmessage
  | getRspToAcquireLocalWritelock request => exact hsound (spentWell_push h) rfl
  | getRspToReleaseLocalWritelock request needHybridFetching =>
    exact hsound (spentWell_push h) rfl
  | processPlacementTriggerRequestForCovered request needHybridFetching =>
    exact hsound (spentWell_push h) rfl
  | nonblockDataFetchForPlacement targetEdgeIdx =>
    obtain ⟨m, hmessage, rfl⟩ := push_eq_some h
    rw [Sender.nonblockDataFetchForPlacement, require_bind_iff] at hmessage
    exact hsound (messageFor_spec hmessage.2) rfl
  | nonblockNotifyForPlacement edgeIdx =>
    obtain ⟨m, hmessage, rfl⟩ := push_eq_some h
    rw [Sender.nonblockNotifyForPlacement, require_bind_iff] at hmessage
    exact hsound (messageFor_spec hmessage.2) rfl
  | getReqToAdmitBeaconDirectory key isBackground =>
    exact hsound (spentWell_requestToBeacon h) rfl
  | getReqToEvictBeaconDirectory key isBackground =>
    exact hsound (spentWell_requestToBeacon h) rfl
  | notifyBeaconForPlacementAfterHybridFetch key bestPlacementEdgeset =>
    exact hsound (spentWell_requestToBeacon h) rfl
  | getRspToRedirectGet request =>
    refine hsound ?_ rfl
    obtain ⟨m, hmessage, rfl⟩ := push_eq_some h
    rw [Sender.getRspToRedirectGet] at hmessage
    split at hmessage
    · exact messageFor_spec hmessage
    · exact messageFor_spec hmessage
    · cases hmessage
  | getReqToLookupBeaconDirectory key => exact hsound (spentWell_requestToBeacon h) rfl
  | getReqToRedirectGet targetEdgeIdx =>
    obtain ⟨m, hmessage, rfl⟩ := push_eq_some h
    rw [Sender.getReqToRedirectGet, require_bind_iff] at hmessage
    exact hsound (messageFor_spec hmessage.2) rfl
  | getReqToAcquireBeaconWritelock key => exact hsound (spentWell_requestToBeacon h) rfl
  | getRspToFinishBlock request =>
    obtain ⟨m, hmessage, rfl⟩ := push_eq_some h
    rw [Sender.getRspToFinishBlock, require_bind_iff] at hmessage
    exact hsound (messageFor_spec hmessage.2) rfl
  | getReqToReleaseBeaconWritelock key => exact hsound (spentWell_requestToBeacon h) rfl
  | afterWritingValue key => exact hsound (spentWell_requestToBeacon h) rfl

end Spending

/-! ## Runs of an edge -/

/-- What happens at an edge: a call, or an operation of its tracker that is no synchronization. -/
inductive Action
  | call (c : Call) (cacheMarginBytes : Nat)
  | operation (op : VictimTracker.Operation)

/-- Syncsets are taken by calls only. -/
def TakesSyncset : VictimTracker.Operation → Bool
  | .getLocalVictimSyncsetForSynchronization .. => true
  | _ => false

/-- One action of the edge; the output is the message pushed. -/
def step (e : Sender) (t : VictimTracker) : Action → Option (VictimTracker × Option Pushed)
  | .call c cacheMarginBytes => (e.call cacheMarginBytes t c).map fun r => (r.1, some r.2)
  | .operation op => do
      require (TakesSyncset op = false)
      let (t', _) ← VictimTracker.step e.config.edgecnt t op
      return (t', none)

/-- Every call is sound. -/
def Meets (e : Sender) (_ : VictimTracker) : Action → Prop
  | .call c _ => c.IsSound e
  | .operation _ => True

/-- The sequence numbers that an edge receives when no message is lost; latest action first. -/
def receivedSeqnums (dst : Nat) : List (Action × Option Pushed) → List Nat
  | [] => []
  | (_, none) :: tr => receivedSeqnums dst tr
  | (_, some p) :: tr =>
      if p.dst.edgeIdx = dst then
        receivedSeqnums dst tr ++ (p.message.victimSyncset.map VictimSyncset.seqnum).toList
      else receivedSeqnums dst tr

section Runs

variable {e : Sender} {t t' : VictimTracker}

/-- The operations of the tracker leave the numbering alone. -/
theorem curSeqnum_operation {edgecnt : Nat} {op : VictimTracker.Operation}
    {out : Option VictimSyncset} (hop : TakesSyncset op = false)
    (h : VictimTracker.step edgecnt t op = some (t', out)) (edgeIdx : Nat) :
    curSeqnum t' edgeIdx = curSeqnum t edgeIdx := by
  have hmonitor : ∀ {u : VictimTracker}, u.peredgeVictimsyncMonitor = t.peredgeVictimsyncMonitor →
      curSeqnum u edgeIdx = curSeqnum t edgeIdx := by
    intro u hu
    rw [curSeqnum, hu, curSeqnum]
  cases op with
  | updateLocalCacheMarginBytes bytes =>
    simp only [VictimTracker.step, require_bind_iff] at h
    obtain ⟨-, heq⟩ := h
    cases heq
    exact hmonitor (sameTracking_updateLocalCacheMarginBytes t bytes).monitor
  | updateLocalSyncedVictims bytes victims view =>
    simp only [VictimTracker.step, bind_eq_some_iff] at h
    obtain ⟨-, -, t₁, h₁, heq⟩ := h
    cases heq
    exact hmonitor (updateLocalSyncedVictims_cases h₁).2.monitor
  | updateLocalBeaconedVictimDirinfo key isAdmit directoryInfo =>
    simp only [VictimTracker.step, bind_eq_some_iff] at h
    obtain ⟨t₁, h₁, heq⟩ := h
    cases heq
    exact hmonitor (sameTracking_updateLocalBeaconedVictimDirinfo h₁).monitor
  | getLocalVictimSyncsetForSynchronization dst bytes => cases hop
  | updateForNeighborVictimSyncset source neighbor view =>
    simp only [VictimTracker.step, bind_eq_some_iff] at h
    obtain ⟨-, -, t₁, h₁, heq⟩ := h
    cases heq
    obtain ⟨m, out, hreceive, -, -, -, hupdate, -⟩ :=
      updateForNeighborVictimSyncset_cases h₁
    have hcur := (VictimsyncMonitor.receive_frame hreceive).1
    simp only [curSeqnum, hupdate, Function.update_apply]
    split
    · next hsame =>
      rw [hcur, hsame, obeyEnforcement]
      split <;> rfl
    · rfl
  | removeVictimsForGivenEdge edgeIdx' keys =>
    simp only [VictimTracker.step, bind_eq_some_iff] at h
    obtain ⟨-, -, t₁, h₁, heq⟩ := h
    cases heq
    obtain ⟨metadata, remaining, -, -, hsame⟩ := removeVictimsForGivenEdge_cases h₁
    exact hmonitor hsame.monitor
  | dumpAndLoad =>
    simp only [VictimTracker.step, dumpVictimTracker, bind_eq_some_iff,
      pure_eq_some_iff, Prod.mk.injEq] at h
    obtain ⟨d, ⟨-, -, rfl⟩, rfl, -⟩ := h
    rfl

/-- A sequence number that is spent well is received next by its edge, and by no other. -/
theorem receivedSeqnums_step {tr : List (Action × Option Pushed)} {action : Action} {p : Pushed}
    (h : ∀ dst, receivedSeqnums dst tr = List.range (curSeqnum t dst)) (hspent : SpentWell t t' p)
    (dst : Nat) :
    receivedSeqnums dst ((action, some p) :: tr) = List.range (curSeqnum t' dst) := by
  obtain ⟨hspends, s, hs, hseqnum⟩ := hspent
  rw [receivedSeqnums, hspends dst, h dst]
  by_cases hdst : p.dst.edgeIdx = dst
  · rw [if_pos hdst, if_pos hdst.symm, hs, List.range_succ, Option.map_some, hseqnum, hdst]
    rfl
  · rw [if_neg hdst, if_neg (Ne.symm hdst)]

/-- A call that does not abort spends its sequence number well iff it is sound; and if all calls of
a run are sound, then every edge receives the sequence numbers `0`, `1`, `2`, … as long as no
message is lost. -/
theorem seqnums_consecutive (e : Sender) :
    (∀ t t' c bytes p, e.call bytes t c = some (t', p) → (SpentWell t t' p ↔ c.IsSound e)) ∧
    ∀ syncedVictimcnt monitoredVictimsetcnt tr t,
      Runs (step e) (Meets e) (.create e.nodeIdx e.config.edgecnt syncedVictimcnt
        monitoredVictimsetcnt) tr t →
      ∀ dst, receivedSeqnums dst tr = List.range (curSeqnum t dst) := by
  refine ⟨fun t t' c bytes p hcall => spentWell_iff hcall, ?_⟩
  intro syncedVictimcnt monitoredVictimsetcnt tr t hrun
  refine hrun.trace_invariant
    (P := fun tr t => ∀ dst, receivedSeqnums dst tr = List.range (curSeqnum t dst))
    (fun dst => rfl) ?_
  intro tr t action t' out ih hmeets hstep
  cases action with
  | call c bytes =>
    simp only [step, Option.map_eq_some_iff, Prod.mk.injEq, Prod.exists] at hstep
    obtain ⟨t₁, p, hcall, rfl, rfl⟩ := hstep
    exact receivedSeqnums_step ih ((spentWell_iff hcall).2 hmeets)
  | operation op =>
    simp only [step, bind_eq_some_iff, require_eq_some_iff, pure_eq_some_iff, Prod.mk.injEq,
      Prod.exists] at hstep
    obtain ⟨-, hop, t₁, o, hoperation, rfl, rfl⟩ := hstep
    intro dst
    rw [receivedSeqnums, ih dst, curSeqnum_operation hop hoperation]

end Runs

/-! ## Examples -/

/-- Edge `0` of three edges on one machine; edge `1` is the beacon of every key. -/
def threeEdges (percacheserverWorkercnt : Nat) : Sender where
  nodeIdx := 0
  config := .onMachines 3 [[49]]
  percacheserverWorkercnt := percacheserverWorkercnt
  getBeaconEdgeIdx := fun _ => 1
  machines_nodup := List.nodup_singleton _

instance (e : Sender) : (c : Call) → Decidable (c.IsSound e)
  | .getInvalidationRequest _ => inferInstanceAs (Decidable False)
  | .getFinishBlockRequest edgeIdx workerIdx => inferInstanceAs (Decidable
      (workerIdx = 0 ∧ (e.percacheserverWorkercnt = 1 ∨ e.config.localEdgeIdx edgeIdx = 0)))
  | .getRspToLookupLocalDirectory .. => inferInstanceAs (Decidable True)
  | .getRspToUpdateLocalDirectory .. => inferInstanceAs (Decidable True)
  | .getRspToAcquireLocalWritelock _ => inferInstanceAs (Decidable True)
  | .getRspToReleaseLocalWritelock .. => inferInstanceAs (Decidable True)
  | .processPlacementTriggerRequestForCovered .. => inferInstanceAs (Decidable True)
  | .nonblockDataFetchForPlacement _ => inferInstanceAs (Decidable True)
  | .nonblockNotifyForPlacement _ => inferInstanceAs (Decidable True)
  | .getReqToAdmitBeaconDirectory .. => inferInstanceAs (Decidable True)
  | .getReqToEvictBeaconDirectory .. => inferInstanceAs (Decidable True)
  | .notifyBeaconForPlacementAfterHybridFetch .. => inferInstanceAs (Decidable True)
  | .getRspToRedirectGet _ => inferInstanceAs (Decidable True)
  | .getReqToLookupBeaconDirectory _ => inferInstanceAs (Decidable True)
  | .getReqToRedirectGet _ => inferInstanceAs (Decidable True)
  | .getReqToAcquireBeaconWritelock _ => inferInstanceAs (Decidable True)
  | .getRspToFinishBlock _ => inferInstanceAs (Decidable True)
  | .getReqToReleaseBeaconWritelock _ => inferInstanceAs (Decidable True)
  | .afterWritingValue _ => inferInstanceAs (Decidable True)

instance (e : Sender) (t : VictimTracker) : (a : Action) → Decidable (Meets e t a)
  | .call c _ => inferInstanceAs (Decidable (c.IsSound e))
  | .operation _ => inferInstanceAs (Decidable True)

/-- One worker for each edge: two lookups at edge `1` and a finished write for edge `2`. -/
theorem seqnums_consecutive_oneWorker :
    ∃ tr t, Runs (step (threeEdges 1)) (Meets (threeEdges 1)) (.create 0 3 3 3) tr t ∧
      curSeqnum t 1 = 2 ∧ receivedSeqnums 1 tr = [0, 1] := by
  have hexec : (exec (step (threeEdges 1)) (Meets (threeEdges 1)) (.create 0 3 3 3)
      [.call (.getReqToLookupBeaconDirectory ⟨[7]⟩) 10, .call (.getFinishBlockRequest 2 0) 10,
        .operation (.updateLocalCacheMarginBytes 5),
        .call (.getReqToLookupBeaconDirectory ⟨[8]⟩) 5]).any
      (fun t => decide (curSeqnum t 1 = 2)) = true := by
    decide +kernel
  obtain ⟨tr, t, hrun, -, ht⟩ := exists_runs_of_any hexec
  rw [decide_eq_true_eq] at ht
  refine ⟨tr, t, hrun, ht, ?_⟩
  rw [(seqnums_consecutive (threeEdges 1)).2 3 3 tr t hrun 1, ht]
  rfl

/-- A copy in edge `1` is invalidated: the first sequence number for edge `1` is spent without a
syncset. With two workers for each edge, the first worker of edge `1` is told about a finished
write: the first sequence number for edge `2` is spent. -/
theorem seqnum_spent_in_vain :
    (∃ t' p, (threeEdges 1).call 10 (.create 0 3 3 3) (.getInvalidationRequest 1) = some (t', p) ∧
      curSeqnum t' 1 = 1 ∧ p.message.victimSyncset = none) ∧
    ∃ t' p, (threeEdges 2).call 10 (.create 0 3 3 3) (.getFinishBlockRequest 1 0) = some (t', p) ∧
      curSeqnum t' 2 = 1 ∧ p.dst.edgeIdx = 1 := by
  constructor
  · have hcall : ((threeEdges 1).call 10 (.create 0 3 3 3) (.getInvalidationRequest 1)).any
        (fun r => decide (curSeqnum r.1 1 = 1) && r.2.message.victimSyncset.isNone) = true := by
      decide +kernel
    obtain ⟨⟨t', p⟩, heq, hr⟩ := (Option.any_eq_true ..).1 hcall
    rw [Bool.and_eq_true, decide_eq_true_eq, Option.isNone_iff_eq_none] at hr
    exact ⟨t', p, heq, hr.1, hr.2⟩
  · have hcall : ((threeEdges 2).call 10 (.create 0 3 3 3) (.getFinishBlockRequest 1 0)).any
        (fun r => decide (curSeqnum r.1 2 = 1) && decide (r.2.dst.edgeIdx = 1)) = true := by
      decide +kernel
    obtain ⟨⟨t', p⟩, heq, hr⟩ := (Option.any_eq_true ..).1 hcall
    rw [Bool.and_eq_true, decide_eq_true_eq, decide_eq_true_eq] at hr
    exact ⟨t', p, heq, hr.1, hr.2⟩

end Covered.Edge.Piggybacking
