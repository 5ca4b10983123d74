import Covered.Cooperation.BlockedEdges

/-!
# The write-lock protocol with retransmission

Cache server workers of other edges acquire and release write locks by messages to the beacon. A
worker takes a fresh sequence number for a request, resends the request when it times out, and drops
a response with another sequence number. The network keeps every copy and may deliver it at any
later time. A worker whose acquisition fails waits for a finish-block request of the beacon. The
workers of the beacon edge itself call the cooperation wrapper directly.

The beacon stores no owner with a lock. `State.owner` and `State.released` are history variables:
to whom the lock of a key was granted last, and which release requests were processed. No function
of the protocol reads them.

`Meets` is the condition of `writelock_mutual_exclusion`: a delivered release request was not
processed before, and a delivered acquisition comes from a worker that is not blocked for the key.
Under it at most one worker holds a lock, each release comes from the holder, and no assertion
fails.
-/

set_option autoImplicit false

namespace Covered.Cooperation.WriteLockProtocol

open Common Lib Lib.Execution
open CooperationWrapper (Operation)

/-! ## Parties and messages -/

/-- What a cache server worker of another edge does with the lock of a key. -/
inductive WorkerState
  | idle
  | acquiring (key : Key) (seqnum : Nat)
  | blocked (key : Key)
  | holding (key : Key)
  | releasing (key : Key) (seqnum : Nat)
deriving DecidableEq

/-- Kind of a request to the beacon. -/
inductive RequestKind
  | acquireWritelock
  | releaseWritelock
deriving DecidableEq

/-- One copy of a request to the beacon. -/
structure Request where
  kind : RequestKind
  addr : NetworkAddr
  key : Key
  seqnum : Nat
deriving DecidableEq

/-- A response of the beacon. -/
inductive Response
  | acquireWritelock (addr : NetworkAddr) (key : Key) (seqnum : Nat) (lockResult : LockResult)
  | releaseWritelock (addr : NetworkAddr) (seqnum : Nat)
deriving DecidableEq

/-- Who can hold a lock: a worker of another edge, or one of the beacon edge. -/
inductive Holder
  | worker (addr : NetworkAddr)
  | localWorker (idx : Nat)
deriving DecidableEq

/-- The beacon, the workers, the messages in flight and the history variables. -/
structure State where
  beacon : CooperationWrapper := {}
  workers : NetworkAddr → WorkerState := fun _ => .idle
  localWorkers : Nat → Option Key := fun _ => none
  nodeMsgSeqnum : Nat → Nat := fun _ => 0
  requests : List Request := []
  responses : List Response := []
  finishBlocks : List (NetworkAddr × Key) := []
  owner : Key → Option Holder := fun _ => none
  released : List (NetworkAddr × Nat) := []

def initial : State := {}

section Protocol

variable (edgeOf : NetworkAddr → Nat) (beaconEdgeIdx : Nat)

/-! ## The workers -/

/-- The state of a worker that waits for the response to a request. -/
def waitingFor : RequestKind → Key → Nat → WorkerState
  | .acquireWritelock, key, seqnum => .acquiring key seqnum
  | .releaseWritelock, key, seqnum => .releasing key seqnum

/-- Send a fresh request and wait for the response. -/
def sendFresh (s : State) (kind : RequestKind) (addr : NetworkAddr) (key : Key) : State :=
  let seqnum := s.nodeMsgSeqnum (edgeOf addr)
  { s with
    workers := Function.update s.workers addr (waitingFor kind key seqnum)
    nodeMsgSeqnum := Function.update s.nodeMsgSeqnum (edgeOf addr) (seqnum + 1)
    requests := ⟨kind, addr, key, seqnum⟩ :: s.requests }

/-- Start to acquire the lock of a key, or try again after a finish-block request. -/
def acquireBeaconWritelock (s : State) (addr : NetworkAddr) (key : Key) : State :=
  sendFresh edgeOf s .acquireWritelock addr key

/-- Start to release the lock of a key. -/
def releaseBeaconWritelock (s : State) (addr : NetworkAddr) (key : Key) : State :=
  sendFresh edgeOf s .releaseWritelock addr key

/-- The state of a worker after the response to its acquisition; without need of a lock the write
goes on and ends without a release. -/
def afterAcquire (key : Key) : LockResult → WorkerState
  | .kSuccess => .holding key
  | .kFailure => .blocked key
  | .kNoneed => .idle

/-- Receive a response; one with a stale sequence number is dropped. -/
def acceptResponse (s : State) : Response → State
  | .acquireWritelock addr _ seqnum lockResult =>
      match s.workers addr with
      | .acquiring key current =>
          if seqnum = current then
            { s with workers := Function.update s.workers addr (afterAcquire key lockResult) }
          else s
      | _ => s
  | .releaseWritelock addr seqnum =>
      match s.workers addr with
      | .releasing _ current =>
          if seqnum = current then { s with workers := Function.update s.workers addr .idle }
          else s
      | _ => s

/-! ## The beacon server -/

/-- Process an acquisition: the response carries the lock result. -/
def processAcquireWritelockRequest (s : State) (request : Request) : Option State :=
  (CooperationWrapper.acquireLocalWritelockByBeaconServer s.beacon request.key
    (edgeOf request.addr) request.addr).map fun (beacon, reply) =>
      { s with
        beacon := beacon
        responses :=
          .acquireWritelock request.addr request.key request.seqnum reply.lockResult :: s.responses
        owner := if reply.lockResult = .kSuccess then
          Function.update s.owner request.key (some (.worker request.addr)) else s.owner }

/-- Process a release: the blocked edges are told to finish blocking. -/
def processReleaseWritelockRequest (s : State) (request : Request) : Option State :=
  (CooperationWrapper.releaseLocalWritelock s.beacon request.key (edgeOf request.addr)
    ⟨edgeOf request.addr⟩).map fun (beacon, reply) =>
      { s with
        beacon := beacon
        responses := .releaseWritelock request.addr request.seqnum :: s.responses
        finishBlocks := reply.blockedEdges.map (fun addr => (addr, request.key)) ++ s.finishBlocks
        owner := Function.update s.owner request.key none
        released := (request.addr, request.seqnum) :: s.released }

def processRequest (s : State) (request : Request) : Option State :=
  match request.kind with
  | .acquireWritelock => processAcquireWritelockRequest edgeOf s request
  | .releaseWritelock => processReleaseWritelockRequest edgeOf s request

/-! ## The workers of the beacon edge -/

/-- One try of a local worker to acquire a lock; it polls until it succeeds or needs none. -/
def acquireLocal (s : State) (idx : Nat) (key : Key) : Option State :=
  (CooperationWrapper.acquireLocalWritelockByCacheServer s.beacon key beaconEdgeIdx).map
    fun (beacon, reply) =>
      if reply.lockResult = .kSuccess then
        { s with
          beacon := beacon
          localWorkers := Function.update s.localWorkers idx (some key)
          owner := Function.update s.owner key (some (.localWorker idx)) }
      else { s with beacon := beacon }

def releaseLocal (s : State) (idx : Nat) (key : Key) : Option State :=
  (CooperationWrapper.releaseLocalWritelock s.beacon key beaconEdgeIdx ⟨beaconEdgeIdx⟩).map
    fun (beacon, reply) =>
      { s with
        beacon := beacon
        localWorkers := Function.update s.localWorkers idx none
        finishBlocks := reply.blockedEdges.map (fun addr => (addr, key)) ++ s.finishBlocks
        owner := Function.update s.owner key none }

/-! ## Steps -/

/-- One step of a party or of the network. -/
inductive Action
  | startAcquire (addr : NetworkAddr) (key : Key)
  | startRelease (addr : NetworkAddr)
  | resend (addr : NetworkAddr)
  | deliverRequest (idx : Nat)
  | deliverResponse (idx : Nat)
  | finishBlock (addr : NetworkAddr)
  | localAcquire (idx : Nat) (key : Key)
  | localRelease (idx : Nat)
  | directory (op : Operation)

/-- Lookups and directory updates, which other requests of the edges cause. -/
def isDirectoryOperation : Operation → Bool
  | .lookupByCacheServer _ _ _ => true
  | .lookupByBeaconServer _ _ _ _ => true
  | .updateDirectory _ _ _ _ => true
  | _ => false

/-- One step; an action that is not enabled changes nothing, and `none` is a failed assertion of the
beacon. -/
def next (s : State) : Action → Option State
  | .startAcquire addr key =>
      match s.workers addr with
      | .idle => some (acquireBeaconWritelock edgeOf s addr key)
      | _ => some s
  | .startRelease addr =>
      match s.workers addr with
      | .holding key => some (releaseBeaconWritelock edgeOf s addr key)
      | _ => some s
  | .resend addr =>
      match s.workers addr with
      | .acquiring key seqnum =>
          some { s with requests := ⟨.acquireWritelock, addr, key, seqnum⟩ :: s.requests }
      | .releasing key seqnum =>
          some { s with requests := ⟨.releaseWritelock, addr, key, seqnum⟩ :: s.requests }
      | _ => some s
  | .deliverRequest idx =>
      match s.requests[idx]? with
      | some request =>
          processRequest edgeOf { s with requests := s.requests.eraseIdx idx } request
      | none => some s
  | .deliverResponse idx =>
      match s.responses[idx]? with
      | some response =>
          some (acceptResponse { s with responses := s.responses.eraseIdx idx } response)
      | none => some s
  | .finishBlock addr =>
      match s.workers addr with
      | .blocked key =>
          if (addr, key) ∈ s.finishBlocks then some (acquireBeaconWritelock edgeOf s addr key)
          else some s
      | _ => some s
  | .localAcquire idx key =>
      match s.localWorkers idx with
      | none => acquireLocal beaconEdgeIdx s idx key
      | some _ => some s
  | .localRelease idx =>
      match s.localWorkers idx with
      | some key => releaseLocal beaconEdgeIdx s idx key
      | none => some s
  | .directory op =>
      if isDirectoryOperation op then
        (CooperationWrapper.step s.beacon op).map fun (beacon, _) => { s with beacon := beacon }
      else some s

def step (s : State) (action : Action) : Option (State × Unit) :=
  (next edgeOf beaconEdgeIdx s action).map fun s' => (s', ())

/-- The condition on a delivered request. -/
def RequestMeets (s : State) (request : Request) : Prop :=
  match request.kind with
  | .acquireWritelock =>
      CooperationWrapper.Meets s.beacon
        (.acquireByBeaconServer request.key (edgeOf request.addr) request.addr)
  | .releaseWritelock => (request.addr, request.seqnum) ∉ s.released

/-- The condition on a step: a delivered release request was not processed before, and a delivered
acquisition or a lookup comes from a worker that is not blocked for the key. -/
def Meets (s : State) : Action → Prop
  | .deliverRequest idx => ∀ request, s.requests[idx]? = some request →
    RequestMeets edgeOf s request
  | .directory op => isDirectoryOperation op = true → CooperationWrapper.Meets s.beacon op
  | _ => True

instance (s : State) (request : Request) : Decidable (RequestMeets edgeOf s request) :=
  match h : request.kind with
  | .acquireWritelock =>
      decidable_of_iff (CooperationWrapper.Meets s.beacon
        (.acquireByBeaconServer request.key (edgeOf request.addr) request.addr))
        (by simp [RequestMeets, h])
  | .releaseWritelock =>
      decidable_of_iff ((request.addr, request.seqnum) ∉ s.released) (by simp [RequestMeets, h])

instance (s : State) : (action : Action) → Decidable (Meets edgeOf s action)
  | .deliverRequest idx =>
      match h : s.requests[idx]? with
      | none => isTrue fun _ hr => by rw [h] at hr; cases hr
      | some request => decidable_of_iff (RequestMeets edgeOf s request) (by simp [Meets, h])
  | .directory op =>
      inferInstanceAs (Decidable (isDirectoryOperation op = true →
        CooperationWrapper.Meets s.beacon op))
  | .startAcquire _ _ => inferInstanceAs (Decidable True)
  | .startRelease _ => inferInstanceAs (Decidable True)
  | .resend _ => inferInstanceAs (Decidable True)
  | .deliverResponse _ => inferInstanceAs (Decidable True)
  | .finishBlock _ => inferInstanceAs (Decidable True)
  | .localAcquire _ _ => inferInstanceAs (Decidable True)
  | .localRelease _ => inferInstanceAs (Decidable True)

/-- The worker has the lock: it was told so and its release was not processed yet. -/
def Holds (s : State) (key : Key) : Holder → Prop
  | .worker addr => s.workers addr = .holding key ∨
      ∃ seqnum, s.workers addr = .releasing key seqnum ∧ (addr, seqnum) ∉ s.released
  | .localWorker idx => s.localWorkers idx = some key

end Protocol

end Covered.Cooperation.WriteLockProtocol
