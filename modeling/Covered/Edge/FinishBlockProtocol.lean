import Covered.Cooperation.BlockedEdges
import Covered.Edge.ParallelFunctions

/-!
# Blocking for writes, with message loss

A cache server worker asks the beacon of a key for its directory infos or for its write lock. While
the key is being written the beacon puts the address of the worker into the blocklist of the key and
answers that it has to wait; the worker then blocks until it receives a FinishBlockRequest for the
key, answers it and goes on. Who releases the lock takes the blocklist and notifies its addresses
with `parallelNotifyEdgesToFinishBlock`: the beacon server for a writer of another edge, the writer
itself if it is a worker of the beacon edge.

`State` has the beacons, the workers, the notifying calls and all messages in flight. Each message
may be late or lost; workers and calls resend when they run into a timeout, and drop a response with
another message seqnum. The steps fail where an assertion of the source does, and where they are not
possible.

`Meets` is the condition of `Covered.Edge.Unblocking`: a worker may go on only when nobody waits for
its acknowledgement any more.
-/

set_option autoImplicit false

namespace Covered.Edge

open Common Cooperation Lib Lib.Checked Lib.Execution

/-- The call has not returned and still waits for the acknowledgement of the target. -/
def Loop.Awaits {τ α : Type} (s : Loop τ α) (t : τ) : Prop :=
  match s.phase with
  | .returned _ => False
  | _ => t ∈ s.remainingVictims ∨ (t, false) ∈ s.ackedFlags

instance {τ α : Type} [DecidableEq τ] (s : Loop τ α) (t : τ) : Decidable (s.Awaits t) :=
  decidable_of_iff ((s.phase ≠ .returned true ∧ s.phase ≠ .returned false) ∧
      (t ∈ s.remainingVictims ∨ (t, false) ∈ s.ackedFlags)) (by
    rw [Loop.Awaits]
    cases s.phase with
    | returned isFinish => cases isFinish <;> simp
    | batching => simp
    | looping => simp
    | receiving n => simp)

namespace FinishBlockProtocol

/-! ## Parties and messages -/

/-- Kind of a request to a beacon. -/
inductive RequestKind
  | directoryLookup
  | acquireWritelock
  | releaseWritelock
deriving DecidableEq

/-- What a cache server worker does. A worker that holds the lock of a key, or that notifies blocked
edges, works as a writer. -/
inductive WorkerState
  | idle
  | waiting (kind : RequestKind) (key : Key) (seqnum : Nat)
  | blocked (kind : RequestKind) (key : Key)
  | holding (key : Key)
  | notifying (key : Key)
deriving DecidableEq

/-- A request to the beacon of its key; `addr` is the address where the worker receives requests,
which the beacon computes from the one where it receives responses. -/
structure Request where
  kind : RequestKind
  addr : NetworkAddr
  key : Key
  seqnum : Nat
deriving DecidableEq

inductive ResponseContent
  | directoryLookup (isBeingWritten isValidDirectoryExist : Bool) (directoryInfo : DirectoryInfo)
  | acquireWritelock (lockResult : LockResult)
  | releaseWritelock
deriving DecidableEq

/-- The key is being written: the worker has to wait. -/
def ResponseContent.isBlocking : ResponseContent → Bool
  | .directoryLookup isBeingWritten _ _ => isBeingWritten
  | .acquireWritelock lockResult => decide (lockResult = .kFailure)
  | .releaseWritelock => false

/-- A response of a beacon. -/
structure Response where
  addr : NetworkAddr
  key : Key
  seqnum : Nat
  content : ResponseContent
deriving DecidableEq

/-- The thread that notifies blocked edges, and receives their responses. -/
inductive Receiver
  | beaconServer (edgeIdx : Nat)
  | cacheServerWorker (addr : NetworkAddr)
deriving DecidableEq

structure FinishBlockRequest where
  receiver : Receiver
  addr : NetworkAddr
  key : Key
  seqnum : Nat
deriving DecidableEq

structure FinishBlockResponse (π : Type) where
  receiver : Receiver
  seqnum : Nat
  response : ControlResponse π

/-- Who released the lock: a worker of another edge with its request, or one of the beacon edge. -/
inductive Caller
  | beaconServer (edgeIdx : Nat) (request : Request)
  | cacheServerWorker (addr : NetworkAddr)
deriving DecidableEq

def Caller.receiver : Caller → Receiver
  | .beaconServer edgeIdx _ => .beaconServer edgeIdx
  | .cacheServerWorker addr => .cacheServerWorker addr

/-- A call of `parallelNotifyEdgesToFinishBlock`. -/
structure Call (σ : Type) where
  caller : Caller
  key : Key
  curMsgSeqnum : Nat
  loop : Loop NetworkAddr σ

def Call.receiver {σ : Type} (call : Call σ) : Receiver := call.caller.receiver

/-- The edges with their parts of the directory, the workers, and the messages in flight. -/
structure State (σ π : Type) where
  beacons : Nat → CooperationWrapper := fun _ => {}
  workers : NetworkAddr → WorkerState := fun _ => .idle
  nodeMsgSeqnum : Nat → Nat := fun _ => 0
  requests : List Request := []
  responses : List Response := []
  calls : List (Call σ) := []
  finishBlockRequests : List FinishBlockRequest := []
  finishBlockResponses : List (FinishBlockResponse π) := []

/-- Where workers and beacons are, and the edges. -/
structure System (σ π : Type) where
  edgeOf : NetworkAddr → Nat
  beaconOf : Key → Nat
  edges : Nat → EdgeWrapper σ π

variable {σ π : Type}

def initial : State σ π := {}

namespace State

def setBeacon (s : State σ π) (edgeIdx : Nat) (beacon : CooperationWrapper) : State σ π :=
  { s with beacons := Function.update s.beacons edgeIdx beacon }

def setWorker (s : State σ π) (addr : NetworkAddr) (worker : WorkerState) : State σ π :=
  { s with workers := Function.update s.workers addr worker }

@[simp] theorem workers_setWorker (s : State σ π) (addr : NetworkAddr) (worker : WorkerState) :
    (s.setWorker addr worker).workers = Function.update s.workers addr worker := rfl

/-- The next message seqnum of an edge is used. -/
def incrNodeMsgSeqnum (s : State σ π) (edgeIdx : Nat) : State σ π :=
  { s with
    nodeMsgSeqnum := Function.update s.nodeMsgSeqnum edgeIdx (s.nodeMsgSeqnum edgeIdx + 1) }

def pushRequest (s : State σ π) (request : Request) : State σ π :=
  { s with requests := request :: s.requests }

def pushResponse (s : State σ π) (response : Response) : State σ π :=
  { s with responses := response :: s.responses }

def replaceCall (s : State σ π) (call : Call σ) (loop : Loop NetworkAddr σ) : State σ π :=
  { s with
    calls := KeyedList.replace Call.receiver call.receiver { call with loop := loop } s.calls }

end State

namespace System

variable (sys : System σ π)

/-- The beacon of a key. -/
def beacon (s : State σ π) (key : Key) : CooperationWrapper := s.beacons (sys.beaconOf key)

/-- The loop of the calls for a key, at the beacon edge of the key. -/
def notification (key : Key) : ParallelRequest NetworkAddr (ControlResponse π) σ :=
  parallelNotifyEdgesToFinishBlock (sys.edges (sys.beaconOf key)) key

/-! ## The workers -/

/-- Send a fresh request and wait for its response. -/
def sendFresh (s : State σ π) (kind : RequestKind) (addr : NetworkAddr) (key : Key) : State σ π :=
  let seqnum := s.nodeMsgSeqnum (sys.edgeOf addr)
  ((s.incrNodeMsgSeqnum (sys.edgeOf addr)).setWorker addr (.waiting kind key seqnum)).pushRequest
    ⟨kind, addr, key, seqnum⟩

/-- The worker after the response to its request. -/
def afterResponse (kind : RequestKind) (key : Key) : ResponseContent → Option WorkerState
  | .directoryLookup isBeingWritten _ _ => do
      require (kind = .directoryLookup)
      return if isBeingWritten then .blocked kind key else .idle
  | .acquireWritelock lockResult => do
      require (kind = .acquireWritelock)
      return match lockResult with
        | .kSuccess => .holding key
        | .kFailure => .blocked kind key
        | .kNoneed => .idle
  | .releaseWritelock => do
      require (kind = .releaseWritelock)
      return .idle

/-- A waiting worker receives a response; a stale one is dropped. -/
def receiveResponse (s : State σ π) (response : Response) : Option (State σ π) :=
  match s.workers response.addr with
  | .waiting kind key seqnum =>
      if response.seqnum = seqnum then do
        let worker ← afterResponse kind key response.content
        return s.setWorker response.addr worker
      else some s
  | _ => none

/-- A worker runs into a timeout: it resends its request, or receives again while it is blocked. It
gives up if its edge is not running. -/
def timeout (s : State σ π) (addr : NetworkAddr) (isNodeRunning : Bool) : Option (State σ π) :=
  match s.workers addr with
  | .waiting kind key seqnum =>
      if isNodeRunning then some (s.pushRequest ⟨kind, addr, key, seqnum⟩)
      else some (s.setWorker addr .idle)
  | .blocked _ _ => if isNodeRunning then some s else some (s.setWorker addr .idle)
  | _ => none

/-- The response of a blocked worker. -/
def finishBlockResponse (request : FinishBlockRequest) (content : π) : FinishBlockResponse π :=
  ⟨request.receiver, request.seqnum, ⟨sys.edgeOf request.addr, request.addr, content⟩⟩

/-- A blocked worker receives a FinishBlockRequest. One for another key is dropped; else the worker
answers and tries again: a lookup does not ask the beacon if the directory info is known locally. -/
def blockForWritesByInterruption (s : State σ π) (request : FinishBlockRequest)
    (needLookupBeaconDirectory : Bool) (content : π) : Option (State σ π) :=
  match s.workers request.addr with
  | .blocked kind key =>
      if key = request.key then
        let s' := { s with
          finishBlockResponses := sys.finishBlockResponse request content ::
            s.finishBlockResponses }
        if kind = .directoryLookup ∧ needLookupBeaconDirectory = false then
          some (s'.setWorker request.addr .idle)
        else some (sys.sendFresh s' kind request.addr key)
      else some s
  | _ => none

/-! ## Releases -/

/-- What the caller does when all blocked edges are notified. -/
def afterNotification (s : State σ π) : Caller → State σ π
  | .beaconServer _ request =>
      s.pushResponse ⟨request.addr, request.key, request.seqnum, .releaseWritelock⟩
  | .cacheServerWorker addr => s.setWorker addr .idle

/-- Notify the blocked edges of a key, if there are any. `acc` is what the caller has collected for
its own requester so far. -/
def notifyEdgesToFinishBlock (s : State σ π) (caller : Caller) (key : Key)
    (blockedEdges : List NetworkAddr) (acc : σ) : State σ π :=
  if blockedEdges = [] then afterNotification s caller
  else
    let edgeIdx := sys.beaconOf key
    { s.incrNodeMsgSeqnum edgeIdx with
      calls := ⟨caller, key, s.nodeMsgSeqnum edgeIdx, .start blockedEdges acc⟩ :: s.calls }

/-- Release the lock of a key for a worker of the source edge. -/
def releaseWritelock (s : State σ π) (caller : Caller) (key : Key) (sourceEdgeIdx : Nat) (acc : σ) :
    Option (State σ π) := do
  let (beacon, reply) ← CooperationWrapper.releaseLocalWritelock (sys.beacon s key) key
    sourceEdgeIdx ⟨sourceEdgeIdx⟩
  return sys.notifyEdgesToFinishBlock (s.setBeacon (sys.beaconOf key) beacon) caller key
    reply.blockedEdges acc

/-! ## The beacon servers -/

def processDirectoryLookupRequest (s : State σ π) (request : Request) (draw : Nat) :
    Option (State σ π) := do
  let (beacon, reply) ← CooperationWrapper.lookupDirectoryTableByBeaconServer
    (sys.beacon s request.key) request.key (sys.edgeOf request.addr) request.addr draw
  return (s.setBeacon (sys.beaconOf request.key) beacon).pushResponse
    ⟨request.addr, request.key, request.seqnum,
      .directoryLookup reply.isBeingWritten reply.isValidDirectoryExist reply.directoryInfo⟩

def processAcquireWritelockRequest (s : State σ π) (request : Request) : Option (State σ π) := do
  let (beacon, reply) ← CooperationWrapper.acquireLocalWritelockByBeaconServer
    (sys.beacon s request.key) request.key (sys.edgeOf request.addr) request.addr
  return (s.setBeacon (sys.beaconOf request.key) beacon).pushResponse
    ⟨request.addr, request.key, request.seqnum, .acquireWritelock reply.lockResult⟩

/-- A beacon server processes a request; `draw` selects among the valid directory infos. -/
def processRequest (s : State σ π) (request : Request) (draw : Nat) (acc : σ) :
    Option (State σ π) :=
  match request.kind with
  | .directoryLookup => sys.processDirectoryLookupRequest s request draw
  | .acquireWritelock => sys.processAcquireWritelockRequest s request
  | .releaseWritelock => sys.releaseWritelock s (.beaconServer (sys.beaconOf request.key) request)
      request.key (sys.edgeOf request.addr) acc

/-! ## Workers of the beacon edge -/

/-- One try of a worker of the beacon edge to acquire a lock; it polls while the key is being
written. -/
def acquireLocalWritelock (s : State σ π) (addr : NetworkAddr) (key : Key) :
    Option (State σ π) := do
  let (beacon, reply) ← CooperationWrapper.acquireLocalWritelockByCacheServer (sys.beacon s key)
    key (sys.edgeOf addr)
  let s' := s.setBeacon (sys.beaconOf key) beacon
  return if reply.lockResult = .kSuccess then s'.setWorker addr (.holding key) else s'

end System

/-! ## Steps -/

/-- One step of a party or of the network. -/
inductive Action (σ π : Type)
  | startRequest (kind : RequestKind) (addr : NetworkAddr) (key : Key)
  | startRelease (addr : NetworkAddr)
  | timeout (addr : NetworkAddr) (isNodeRunning : Bool)
  | deliverRequest (i draw : Nat) (acc : σ)
  | deliverResponse (i : Nat)
  | finishBlock (i : Nat) (needLookupBeaconDirectory : Bool) (content : π)
  | acquireLocal (addr : NetworkAddr) (key : Key)
  | releaseLocal (addr : NetworkAddr) (acc : σ)
  | updateDirectory (key : Key) (sourceEdgeIdx : Nat) (isAdmit : Bool)
  | advance (receiver : Receiver)
  | callTimeout (receiver : Receiver) (isNodeRunning : Bool)
  | recv (i : Nat)
  | foreign (receiver : Receiver) (msgSeqnum : Nat) (response : ControlResponse π)
  | returned (receiver : Receiver)
  | loseRequest (i : Nat)
  | loseResponse (i : Nat)
  | loseFinishBlockRequest (i : Nat)
  | loseFinishBlockResponse (i : Nat)

namespace State

/-- The call in which a thread is, if it is in one. -/
def call? (s : State σ π) (receiver : Receiver) : Option (Call σ) :=
  KeyedList.find Call.receiver receiver s.calls

end State

namespace System

variable (sys : System σ π)

/-- A call goes on; the requests that it sends are in flight. -/
def advanceCall (s : State σ π) (call : Call σ) : Option (State σ π) := do
  let (loop, sent) ← (sys.notification call.key).advance call.loop
  return { s.replaceCall call loop with
    finishBlockRequests := sent.map (fun addr =>
      ⟨call.receiver, addr, call.key, call.curMsgSeqnum⟩) ++ s.finishBlockRequests }

/-- A call receives a message. -/
def receiveInCall (s : State σ π) (call : Call σ) (msgSeqnum : Nat) (response : ControlResponse π) :
    Option (State σ π) := do
  let loop ← (sys.notification call.key).receive call.curMsgSeqnum msgSeqnum response call.loop
  return s.replaceCall call loop

/-- One step; it fails where an assertion does, and where the action is not possible. -/
def next (s : State σ π) : Action σ π → Option (State σ π)
  | .startRequest kind addr key => do
      require (s.workers addr = .idle)
      require (kind ≠ .releaseWritelock)
      require (sys.beaconOf key ≠ sys.edgeOf addr)
      return sys.sendFresh s kind addr key
  | .startRelease addr =>
      match s.workers addr with
      | .holding key => do
          require (sys.beaconOf key ≠ sys.edgeOf addr)
          return sys.sendFresh s .releaseWritelock addr key
      | _ => none
  | .timeout addr isNodeRunning => timeout s addr isNodeRunning
  | .deliverRequest i draw acc => do
      let request ← s.requests[i]?
      -- the beacon server is one thread
      require (s.call? (.beaconServer (sys.beaconOf request.key)) = none)
      sys.processRequest { s with requests := s.requests.eraseIdx i } request draw acc
  | .deliverResponse i => do
      let response ← s.responses[i]?
      receiveResponse { s with responses := s.responses.eraseIdx i } response
  | .finishBlock i needLookupBeaconDirectory content => do
      let request ← s.finishBlockRequests[i]?
      sys.blockForWritesByInterruption
        { s with finishBlockRequests := s.finishBlockRequests.eraseIdx i } request
        needLookupBeaconDirectory content
  | .acquireLocal addr key => do
      require (s.workers addr = .idle)
      require (sys.beaconOf key = sys.edgeOf addr)
      sys.acquireLocalWritelock s addr key
  | .releaseLocal addr acc =>
      match s.workers addr with
      | .holding key => do
          require (sys.beaconOf key = sys.edgeOf addr)
          sys.releaseWritelock (s.setWorker addr (.notifying key)) (.cacheServerWorker addr) key
            (sys.edgeOf addr) acc
      | _ => none
  | .updateDirectory key sourceEdgeIdx isAdmit => do
      let (beacon, _) ← CooperationWrapper.updateDirectoryTable (sys.beacon s key) key
        sourceEdgeIdx isAdmit ⟨sourceEdgeIdx⟩
      return s.setBeacon (sys.beaconOf key) beacon
  | .advance receiver => do
      let call ← s.call? receiver
      sys.advanceCall s call
  | .callTimeout receiver isNodeRunning => do
      let call ← s.call? receiver
      let loop ← call.loop.timeout isNodeRunning
      return s.replaceCall call loop
  | .recv i => do
      let message ← s.finishBlockResponses[i]?
      let call ← s.call? message.receiver
      sys.receiveInCall { s with finishBlockResponses := s.finishBlockResponses.eraseIdx i } call
        message.seqnum message.response
  | .foreign receiver msgSeqnum response => do
      let call ← s.call? receiver
      require (msgSeqnum ≠ call.curMsgSeqnum)
      sys.receiveInCall s call msgSeqnum response
  | .returned receiver => do
      let call ← s.call? receiver
      require (call.loop.phase = .returned true ∨ call.loop.phase = .returned false)
      return afterNotification
        { s with calls := KeyedList.erase Call.receiver receiver s.calls } call.caller
  | .loseRequest i => do
      require (i < s.requests.length)
      return { s with requests := s.requests.eraseIdx i }
  | .loseResponse i => do
      require (i < s.responses.length)
      return { s with responses := s.responses.eraseIdx i }
  | .loseFinishBlockRequest i => do
      require (i < s.finishBlockRequests.length)
      return { s with finishBlockRequests := s.finishBlockRequests.eraseIdx i }
  | .loseFinishBlockResponse i => do
      require (i < s.finishBlockResponses.length)
      return { s with finishBlockResponses := s.finishBlockResponses.eraseIdx i }

def step (s : State σ π) (action : Action σ π) : Option (State σ π × Unit) :=
  (sys.next s action).map fun s' => (s', ())

end System

/-! ## Who will answer -/

/-- The key that a worker looks up or acquires. -/
def WorkerState.currentKey : WorkerState → Option Key
  | .waiting _ key _ => some key
  | .blocked _ key => some key
  | _ => none

/-- The key on which a worker is blocked. -/
def WorkerState.blockedKey : WorkerState → Option Key
  | .blocked _ key => some key
  | _ => none

/-- The key of the request of a worker, and the seqnum of the response for which it waits. -/
def WorkerState.awaited : WorkerState → Option (Key × Nat)
  | .waiting _ key seqnum => some (key, seqnum)
  | _ => none

/-- The worker is blocked on the key, and answers the next FinishBlockRequest for it. -/
def IsBlocked (s : State σ π) (addr : NetworkAddr) (key : Key) : Prop :=
  (s.workers addr).blockedKey = some key

/-- The worker waits for the response with this seqnum. -/
def IsWaiting (s : State σ π) (addr : NetworkAddr) (seqnum : Nat) : Prop :=
  (s.workers addr).awaited.map Prod.snd = some seqnum

/-- A response that blocks the worker is in flight. -/
def HasBlocking (responses : List Response) (addr : NetworkAddr) (seqnum : Nat) : Prop :=
  ∃ r ∈ responses, r.addr = addr ∧ r.seqnum = seqnum ∧ r.content.isBlocking = true

/-- The worker waits for the response to a request for the key, and one that blocks it is in
flight. -/
def WillBlock (s : State σ π) (addr : NetworkAddr) (key : Key) : Prop :=
  ∃ p ∈ (s.workers addr).awaited, p.1 = key ∧ HasBlocking s.responses addr p.2

/-- A response of the address to the call is in flight. -/
def HasResponse (messages : List (FinishBlockResponse π)) (call : Call σ) (addr : NetworkAddr) :
    Prop :=
  ∃ m ∈ messages, m.receiver = call.receiver ∧ m.seqnum = call.curMsgSeqnum ∧
    m.response.sourceAddr = addr

/-- Nobody waits for a further acknowledgement of the worker for the key: it is not in the
blocklist, and its response to each call that awaits it is in flight. -/
def Settled (sys : System σ π) (s : State σ π) (messages : List (FinishBlockResponse π))
    (addr : NetworkAddr) (key : Key) : Prop :=
  CooperationWrapper.NotBlocked (sys.beacon s key) key addr ∧
    ∀ call ∈ s.calls, call.key = key → call.loop.Awaits addr → HasResponse messages call addr

/-- The worker may stop to look up or acquire its key. -/
def MayLeave (sys : System σ π) (s : State σ π) (messages : List (FinishBlockResponse π))
    (addr : NetworkAddr) : Prop :=
  ∀ key ∈ (s.workers addr).currentKey, Settled sys s messages addr key

/-- The request enters the blocklist of its key when it is processed. -/
def EntersBlocklist (sys : System σ π) (s : State σ π) (request : Request) : Prop :=
  (sys.beacon s request.key).isBeingWritten request.key = true ∧
    (request.kind = .directoryLookup ∨ request.kind = .acquireWritelock ∧
      DirectoryTable.isGlobalCached (sys.beacon s request.key).directoryTable request.key = true)

/-- The condition. A worker stops to look up or acquire its key (it takes a response that does not
block it, it answers a FinishBlockRequest, or its edge is not running) only if nobody waits for a
further acknowledgement. A request that enters the blocklist comes from a worker that waits for its
response or is blocked on the key. Of the messages on which a waiting party depends no last one is
lost. -/
def Meets (sys : System σ π) (s : State σ π) : Action σ π → Prop
  | .timeout addr isNodeRunning =>
      isNodeRunning = true ∨ MayLeave sys s s.finishBlockResponses addr
  | .deliverRequest i _ _ => ∀ request ∈ s.requests[i]?, EntersBlocklist sys s request →
      s.workers request.addr = .waiting request.kind request.key request.seqnum ∨
        IsBlocked s request.addr request.key
  | .deliverResponse i => ∀ r ∈ s.responses[i]?, IsWaiting s r.addr r.seqnum →
      r.content.isBlocking = true ∨ MayLeave sys s s.finishBlockResponses r.addr
  | .finishBlock i _ content => ∀ request ∈ s.finishBlockRequests[i]?,
      IsBlocked s request.addr request.key → MayLeave sys s
        (sys.finishBlockResponse request content :: s.finishBlockResponses) request.addr
  | .loseResponse i => ∀ r ∈ s.responses[i]?, IsWaiting s r.addr r.seqnum →
      r.content.isBlocking = true → HasBlocking (s.responses.eraseIdx i) r.addr r.seqnum ∨
        MayLeave sys s s.finishBlockResponses r.addr
  | .loseFinishBlockResponse i => ∀ m ∈ s.finishBlockResponses[i]?, ∀ call ∈ s.calls,
      m.receiver = call.receiver → m.seqnum = call.curMsgSeqnum →
      call.loop.Awaits m.response.sourceAddr →
      HasResponse (s.finishBlockResponses.eraseIdx i) call m.response.sourceAddr ∨
        IsBlocked s m.response.sourceAddr call.key ∨ WillBlock s m.response.sourceAddr call.key
  | _ => True

/-! ## Deciding the condition -/

instance (s : State σ π) (addr : NetworkAddr) (key : Key) : Decidable (IsBlocked s addr key) :=
  inferInstanceAs (Decidable (_ = _))

instance (s : State σ π) (addr : NetworkAddr) (seqnum : Nat) :
    Decidable (IsWaiting s addr seqnum) :=
  inferInstanceAs (Decidable (_ = _))

instance (responses : List Response) (addr : NetworkAddr) (seqnum : Nat) :
    Decidable (HasBlocking responses addr seqnum) :=
  inferInstanceAs (Decidable (∃ r ∈ responses, _))

instance (s : State σ π) (addr : NetworkAddr) (key : Key) : Decidable (WillBlock s addr key) :=
  inferInstanceAs (Decidable (∃ p ∈ (s.workers addr).awaited, _))

instance (messages : List (FinishBlockResponse π)) (call : Call σ) (addr : NetworkAddr) :
    Decidable (HasResponse messages call addr) :=
  inferInstanceAs (Decidable (∃ m ∈ messages, _))

instance (sys : System σ π) (s : State σ π) (messages : List (FinishBlockResponse π))
    (addr : NetworkAddr) (key : Key) : Decidable (Settled sys s messages addr key) :=
  inferInstanceAs (Decidable (_ ∧ ∀ call ∈ s.calls, _))

instance (sys : System σ π) (s : State σ π) (messages : List (FinishBlockResponse π))
    (addr : NetworkAddr) : Decidable (MayLeave sys s messages addr) :=
  inferInstanceAs (Decidable (∀ key ∈ (s.workers addr).currentKey, _))

instance (sys : System σ π) (s : State σ π) (request : Request) :
    Decidable (EntersBlocklist sys s request) :=
  inferInstanceAs (Decidable (_ ∧ _))

instance (sys : System σ π) (s : State σ π) : (action : Action σ π) →
    Decidable (Meets sys s action)
  | .timeout _ _ => inferInstanceAs (Decidable (_ ∨ _))
  | .deliverRequest i _ _ => inferInstanceAs (Decidable (∀ request ∈ s.requests[i]?, _))
  | .deliverResponse i => inferInstanceAs (Decidable (∀ r ∈ s.responses[i]?, _))
  | .finishBlock i _ _ =>
      inferInstanceAs (Decidable (∀ request ∈ s.finishBlockRequests[i]?, _))
  | .loseResponse i => inferInstanceAs (Decidable (∀ r ∈ s.responses[i]?, _))
  | .loseFinishBlockResponse i =>
      inferInstanceAs (Decidable (∀ m ∈ s.finishBlockResponses[i]?, _))
  | .startRequest _ _ _ => isTrue trivial
  | .startRelease _ => isTrue trivial
  | .acquireLocal _ _ => isTrue trivial
  | .releaseLocal _ _ => isTrue trivial
  | .updateDirectory _ _ _ => isTrue trivial
  | .advance _ => isTrue trivial
  | .callTimeout _ _ => isTrue trivial
  | .recv _ => isTrue trivial
  | .foreign _ _ _ => isTrue trivial
  | .returned _ => isTrue trivial
  | .loseRequest _ => isTrue trivial
  | .loseFinishBlockRequest _ => isTrue trivial

end FinishBlockProtocol

end Covered.Edge
