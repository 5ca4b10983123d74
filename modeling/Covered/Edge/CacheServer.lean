import Covered.Cache.CacheWrapper
import Covered.Cooperation.CooperationWrapper

/-!
# Local gets and writes over edges, beacons and the cloud

The cache server workers of the edges process gets, puts and deletes of their clients. A get reads
the local edge cache; on a miss it looks the key up at the beacon and is redirected to an edge that
has a copy, or reads the cloud. A write acquires the write lock at the beacon, which invalidates all
copies before it answers; then the cloud applies the write, the local copy is updated and the lock
is released. Values that were fetched or written are placed at edges: an edge first admits its
directory info at the beacon and then admits the object into its cache. Evicted objects are removed
from the directory later.

A request of a worker has one message under way at a time, so its phase says where it is: with the
worker, on the way to another party, or on the way back. Messages without an answer are in the
lists of the state. Every step is one atomic action of one party, and a message may be processed at
any later time.

A directory update is sent to its beacon again after a timeout, with the same message number, and
the beacon processes every copy. A copy may be sent as long as another one is under way; when it is
sent later, that is a run in which it was sent then and has been delayed. Of the answers to an
admission the edge takes in the first; it drops the others, which are stale by their number.

`State.responded` and `LocalGet.respondedBefore` are history variables: the versions of the writes
of a key that have been answered, and those answered before a get started. No handler reads them.
-/

set_option autoImplicit false

namespace Covered.Edge

open Cache Common Cooperation

/-! ## Requests in progress -/

/-- The answer of an edge to a redirected get. -/
inductive RedirectedAnswer
  | kCooperativeHit (value : Versioned)
  | kCooperativeInvalid
  | kGlobalMiss
deriving DecidableEq

/-- Where a local get stands. -/
inductive GetPhase
  | lookingUp
  | lookedUp (reply : LookupReply)
  | blocked
  | redirecting (target : Nat)
  | redirected (answer : RedirectedAnswer)
  | fetching
  | fetched (value : Versioned)
  | finished (value : Versioned)
deriving DecidableEq

/-- Where a local put or delete stands. -/
inductive WritePhase
  | acquiring
  | blocked
  | invalidating (remaining : List Nat)
  | acquired (lockResult : LockResult)
  | written (value : Versioned) (lockResult : LockResult)
  | updated (value : Versioned) (lockResult : LockResult)
  | finished (value : Versioned)
deriving DecidableEq

/-- A local get in progress at a worker of an edge. -/
structure LocalGet where
  edge : Nat
  addr : NetworkAddr
  key : Key
  respondedBefore : List Nat
  phase : GetPhase

/-- A local put or delete in progress at a worker of an edge. -/
structure LocalWrite where
  edge : Nat
  addr : NetworkAddr
  key : Key
  value : Value
  phase : WritePhase

/-- A value on its way into the cache of an edge, with the number of the directory update. -/
structure Placement where
  edge : Nat
  key : Key
  value : Versioned
  isValid : Bool
  msgSeqnum : Nat

/-- What a directory admission and its answers have in common. -/
def Placement.id (p : Placement) : Nat × Key × Nat := (p.edge, p.key, p.msgSeqnum)

instance : LawfulBEq (Nat × Key × Nat) := inferInstance

/-- The cloud, the edges, the requests in progress and the messages in flight. -/
structure State where
  cloud : Key → Versioned := fun _ => ⟨deletedValue, 0⟩
  caches : Nat → CacheWrapper := fun _ => {}
  beacons : Nat → CooperationWrapper := fun _ => {}
  gets : List LocalGet := []
  writes : List LocalWrite := []
  finishBlocks : List (NetworkAddr × Key) := []
  fetchedForPlacement : List (Key × Versioned) := []
  notifications : List Placement := []
  admissions : List Placement := []
  answered : List (Nat × Key × Nat) := []
  evictions : List (Nat × Key) := []
  nodeMsgSeqnum : Nat → Nat := fun _ => 0
  responded : Key → List Nat := fun _ => []

def initial : State := {}

namespace State

def setCache (s : State) (edge : Nat) (c : CacheWrapper) : State :=
  { s with caches := Function.update s.caches edge c }

def setBeacon (s : State) (edge : Nat) (w : CooperationWrapper) : State :=
  { s with beacons := Function.update s.beacons edge w }

/-- A value is placed at an edge, under the next message number of this edge. -/
def place (s : State) (edge : Nat) (key : Key) (value : Versioned) (isValid : Bool) : State :=
  { s with
    notifications := s.notifications ++ [⟨edge, key, value, isValid, s.nodeMsgSeqnum edge⟩]
    nodeMsgSeqnum := Function.update s.nodeMsgSeqnum edge (s.nodeMsgSeqnum edge + 1) }

theorem caches_setCache (s : State) (edge : Nat) (c : CacheWrapper) (e : Nat) :
    (s.setCache edge c).caches e = if e = edge then c else s.caches e :=
  Function.update_apply s.caches edge c e

theorem beacons_setBeacon (s : State) (edge : Nat) (w : CooperationWrapper) (beacon : Nat) :
    (s.setBeacon edge w).beacons beacon = if beacon = edge then w else s.beacons beacon :=
  Function.update_apply s.beacons edge w beacon

/-- Receive a finish-block request, if there is one. -/
def takeFinishBlock (s : State) (addr : NetworkAddr) (key : Key) : Option State :=
  if (addr, key) ∈ s.finishBlocks then
    some { s with finishBlocks := s.finishBlocks.erase (addr, key) }
  else none

end State

section Handlers

variable (beaconOf : Key → Nat)

/-! ## Local gets -/

/-- One action of a party for a local get. -/
inductive GetAction
  | lookup (draw : Nat)
  | useCachedDirectory (target : Nat)
  | receiveLookup
  | finishBlock
  | redirect
  | receiveRedirect
  | fetchFromCloud
  | updateInvalid (isSuccessful : Bool)

/-- The beacon looks the key up. The worker of the beacon edge polls while the key is being written;
another one is blocked by the beacon. -/
def lookupDirectory (s : State) (g : LocalGet) (draw : Nat) : Option (State × GetPhase) :=
  let beacon := beaconOf g.key
  if g.edge = beacon then do
    let reply ← (s.beacons beacon).lookupDirectoryTableByCacheServer g.key g.edge draw
    return (s, if reply.isBeingWritten then .lookingUp else .lookedUp reply)
  else do
    let (w, reply) ←
      (s.beacons beacon).lookupDirectoryTableByBeaconServer g.key g.edge g.addr draw
    return (s.setBeacon beacon w, .lookedUp reply)

/-- Redirect a get; a worker that would be redirected to its own edge reads the cloud. -/
def redirectTo (g : LocalGet) (target : Nat) : GetPhase :=
  if target = g.edge then .fetching else .redirecting target

/-- Where the value is fetched after an answer of the beacon. -/
def afterLookup (g : LocalGet) (reply : LookupReply) : GetPhase :=
  if reply.isBeingWritten then .blocked
  else if reply.isValidDirectoryExist then redirectTo g reply.directoryInfo.targetEdgeIdx
  else .fetching

/-- The target of a redirected get accesses its cache. -/
def processRedirectedGet (s : State) (target : Nat) (key : Key) : RedirectedAnswer :=
  match (s.caches target).get key with
  | some value => .kCooperativeHit value
  | none =>
      if (s.caches target).isLocalCached key then .kCooperativeInvalid else .kGlobalMiss

def afterRedirect : RedirectedAnswer → GetPhase
  | .kCooperativeHit value => .fetched value
  | .kCooperativeInvalid => .lookingUp
  | .kGlobalMiss => .fetching

/-- One action for a get; an action that is not enabled changes nothing. -/
def stepGet (s : State) (g : LocalGet) : GetAction → Option (State × GetPhase)
  | .lookup draw =>
      match g.phase with
      | .lookingUp => lookupDirectory beaconOf s g draw
      | phase => some (s, phase)
  | .useCachedDirectory target =>
      match g.phase with
      | .lookingUp =>
          if g.edge = beaconOf g.key then some (s, .lookingUp)
          else some (s, redirectTo g target)
      | phase => some (s, phase)
  | .receiveLookup =>
      match g.phase with
      | .lookedUp reply => some (s, afterLookup g reply)
      | phase => some (s, phase)
  | .finishBlock =>
      match g.phase with
      | .blocked =>
          match s.takeFinishBlock g.addr g.key with
          | some s' => some (s', .lookingUp)
          | none => some (s, .blocked)
      | phase => some (s, phase)
  | .redirect =>
      match g.phase with
      | .redirecting target => some (s, .redirected (processRedirectedGet s target g.key))
      | phase => some (s, phase)
  | .receiveRedirect =>
      match g.phase with
      | .redirected answer => some (s, afterRedirect answer)
      | phase => some (s, phase)
  | .fetchFromCloud =>
      match g.phase with
      | .fetching => some (s, .fetched (s.cloud g.key))
      | phase => some (s, phase)
  | .updateInvalid isSuccessful =>
      match g.phase with
      | .fetched value =>
          some (s.setCache g.edge
            ((s.caches g.edge).updateIfInvalidForGetrsp g.key value isSuccessful), .finished value)
      | phase => some (s, phase)

/-- The first phase of a get: a local hit needs no fetch. -/
def firstPhase (s : State) (edge : Nat) (key : Key) : GetPhase :=
  match (s.caches edge).get key with
  | some value => .fetched value
  | none => .lookingUp

/-! ## Local writes -/

/-- One action of a party for a local put or delete. -/
inductive WriteAction
  | acquire
  | finishBlock
  | invalidate (edge : Nat)
  | finishInvalidation
  | writeToCloud
  | updateLocal (isSuccessful : Bool)
  | release

/-- The phase of a write after the decision of the beacon. -/
def afterAcquire (retry : WritePhase) (reply : CooperationWrapper.AcquireReply) : WritePhase :=
  match reply.lockResult with
  | .kSuccess => .invalidating (reply.allDirinfo.map DirectoryInfo.targetEdgeIdx)
  | .kNoneed => .acquired .kNoneed
  | .kFailure => retry

/-- The beacon decides about the write lock. The worker of the beacon edge polls; another one is
blocked by the beacon. -/
def acquireWritelock (s : State) (w : LocalWrite) : Option (State × WritePhase) :=
  let beacon := beaconOf w.key
  if w.edge = beacon then do
    let (wrapper, reply) ←
      (s.beacons beacon).acquireLocalWritelockByCacheServer w.key w.edge
    return (s.setBeacon beacon wrapper, afterAcquire .acquiring reply)
  else do
    let (wrapper, reply) ←
      (s.beacons beacon).acquireLocalWritelockByBeaconServer w.key w.edge w.addr
    return (s.setBeacon beacon wrapper, afterAcquire .blocked reply)

/-- The beacon releases the write lock and tells the blocked edges. -/
def releaseWritelock (s : State) (w : LocalWrite) (value : Versioned) :
    Option (State × WritePhase) := do
  let beacon := beaconOf w.key
  let (wrapper, reply) ← (s.beacons beacon).releaseLocalWritelock w.key w.edge ⟨w.edge⟩
  let notified := { s.setBeacon beacon wrapper with
    finishBlocks := s.finishBlocks ++ reply.blockedEdges.map fun addr => (addr, w.key) }
  return (notified, .finished value)

/-- The cloud applies a write. -/
def writeToCloud (s : State) (w : LocalWrite) (lockResult : LockResult) : State × WritePhase :=
  let value : Versioned := ⟨w.value, (s.cloud w.key).version + 1⟩
  ({ s with cloud := Function.update s.cloud w.key value }, .written value lockResult)

/-- One action for a write; an action that is not enabled changes nothing. -/
def stepWrite (s : State) (w : LocalWrite) : WriteAction → Option (State × WritePhase)
  | .acquire =>
      match w.phase with
      | .acquiring => acquireWritelock beaconOf s w
      | phase => some (s, phase)
  | .finishBlock =>
      match w.phase with
      | .blocked =>
          match s.takeFinishBlock w.addr w.key with
          | some s' => some (s', .acquiring)
          | none => some (s, .blocked)
      | phase => some (s, phase)
  | .invalidate edge =>
      match w.phase with
      | .invalidating remaining =>
          if edge ∈ remaining then
            some (s.setCache edge ((s.caches edge).invalidateKeyForLocalCachedObject w.key),
              .invalidating (remaining.erase edge))
          else some (s, .invalidating remaining)
      | phase => some (s, phase)
  | .finishInvalidation =>
      match w.phase with
      | .invalidating [] => some (s, .acquired .kSuccess)
      | phase => some (s, phase)
  | .writeToCloud =>
      match w.phase with
      | .acquired lockResult => some (writeToCloud s w lockResult)
      | phase => some (s, phase)
  | .updateLocal isSuccessful =>
      match w.phase with
      | .written value lockResult =>
          some (s.setCache w.edge ((s.caches w.edge).update w.key value isSuccessful),
            .updated value lockResult)
      | phase => some (s, phase)
  | .release =>
      match w.phase with
      | .updated value .kSuccess => releaseWritelock beaconOf s w value
      | .updated value _ => some (s, .finished value)
      | phase => some (s, phase)

/-! ## Steps -/

/-- One atomic action of a party. -/
inductive Action
  | startGet (edge : Nat) (addr : NetworkAddr) (key : Key)
  | get (index : Nat) (action : GetAction)
  | respondGet (index : Nat)
  | startWrite (edge : Nat) (addr : NetworkAddr) (key : Key) (value : Value)
  | write (index : Nat) (action : WriteAction)
  | respondWrite (index : Nat)
  | admitFetched (index : Nat)
  | admitWritten (index : Nat)
  | sendFetched (index : Nat)
  | sendWritten (index : Nat)
  | fetchForPlacement (edge : Nat) (key : Key)
  | fetchFromCloudForPlacement (key : Key)
  | notifyForPlacement (index edge : Nat)
  | admitDirectory (index : Nat)
  | resendAdmission (index : Nat)
  | admitLocal (index : Nat) (isSuccessful : Bool)
  | evictLocal (edge : Nat) (key : Key)
  | evictDirectory (index : Nat)
  | resendEviction (index : Nat)

/-- A response to a client, with the history of the get. -/
inductive Response
  | none
  | localGetResponse (key : Key) (respondedBefore : List Nat) (value : Versioned)
  | localWriteResponse (key : Key) (version : Nat)

/-- A value that a get has fetched and a value that a write has stored, ready to be placed. -/
def fetchedValue (s : State) (index : Nat) : Option (LocalGet × Versioned) :=
  match s.gets[index]? with
  | some g =>
      match g.phase with
      | .finished value => some (g, value)
      | _ => none
  | none => none

def writtenValue (s : State) (index : Nat) : Option (LocalWrite × Versioned) :=
  match s.writes[index]? with
  | some w =>
      match w.phase with
      | .finished value => some (w, value)
      | _ => none
  | none => none

/-- An edge asks the beacon to admit its directory info. -/
def askAdmission (s : State) (edge : Nat) (key : Key) (value : Versioned) : State :=
  s.place edge key value true

/-- A value is sent to the beacon for placement. -/
def sendForPlacement (s : State) (key : Key) (value : Versioned) : State :=
  { s with fetchedForPlacement := s.fetchedForPlacement ++ [(key, value)] }

/-- The beacon notifies an edge of a placement; the value counts as valid if the key is not being
written. -/
def notifyForPlacement (s : State) (key : Key) (value : Versioned) (edge : Nat) : State :=
  s.place edge key value (!(s.beacons (beaconOf key)).isBeingWritten key)

/-- The beacon admits a directory info; during a write the object will be admitted as invalid. -/
def admitDirectory (s : State) (p : Placement) : Option State := do
  let beacon := beaconOf p.key
  let (wrapper, reply) ← (s.beacons beacon).updateDirectoryTable p.key p.edge true ⟨p.edge⟩
  return { s.setBeacon beacon wrapper with
    admissions := s.admissions ++ [{ p with isValid := p.isValid && !reply.isBeingWritten }] }

/-- A timeout: an edge that is not the beacon of the key sends its directory admission again. -/
def resendAdmission (s : State) (index : Nat) : State :=
  { s with notifications := s.notifications ++
      s.notifications[index]?.toList.filter fun p => p.edge ≠ beaconOf p.key }

/-- A timeout: an edge that is not the beacon of the key sends its directory eviction again. -/
def resendEviction (s : State) (index : Nat) : State :=
  { s with evictions := s.evictions ++
      s.evictions[index]?.toList.filter fun evicted => evicted.1 ≠ beaconOf evicted.2 }

def admitLocalEdgeCache (s : State) (p : Placement) (isSuccessful : Bool) : State :=
  s.setCache p.edge ((s.caches p.edge).admitObject p.key p.value p.isValid isSuccessful)

/-- An edge evicts an object; the directory is told later. -/
def evictLocalEdgeCache (s : State) (edge : Nat) (key : Key) : State :=
  { s.setCache edge ((s.caches edge).evict key) with
    evictions := s.evictions ++ [(edge, key)] }

def evictDirectory (s : State) (edge : Nat) (key : Key) : Option State := do
  let beacon := beaconOf key
  let (wrapper, _) ← (s.beacons beacon).updateDirectoryTable key edge false ⟨edge⟩
  return s.setBeacon beacon wrapper

/-- One step; `none` is a failed assertion, and an action that is not enabled changes nothing. -/
def step (s : State) : Action → Option (State × Response)
  | .startGet edge addr key =>
      some ({ s with gets := s.gets ++
        [⟨edge, addr, key, s.responded key, firstPhase s edge key⟩] }, .none)
  | .get index action =>
      match s.gets[index]? with
      | none => some (s, .none)
      | some g => do
          let (s', phase) ← stepGet beaconOf s g action
          return ({ s' with gets := s.gets.set index { g with phase := phase } }, .none)
  | .respondGet index =>
      match fetchedValue s index with
      | none => some (s, .none)
      | some (g, value) =>
          some ({ s with gets := s.gets.eraseIdx index },
            .localGetResponse g.key g.respondedBefore value)
  | .startWrite edge addr key value =>
      some ({ s with writes := s.writes ++ [⟨edge, addr, key, value, .acquiring⟩] }, .none)
  | .write index action =>
      match s.writes[index]? with
      | none => some (s, .none)
      | some w => do
          let (s', phase) ← stepWrite beaconOf s w action
          return ({ s' with writes := s.writes.set index { w with phase := phase } }, .none)
  | .respondWrite index =>
      match writtenValue s index with
      | none => some (s, .none)
      | some (w, value) =>
          some ({ s with
            writes := s.writes.eraseIdx index
            responded := Function.update s.responded w.key
              (value.version :: s.responded w.key) }, .localWriteResponse w.key value.version)
  | .admitFetched index =>
      match fetchedValue s index with
      | none => some (s, .none)
      | some (g, value) => some (askAdmission s g.edge g.key value, .none)
  | .admitWritten index =>
      match writtenValue s index with
      | none => some (s, .none)
      | some (w, value) => some (askAdmission s w.edge w.key value, .none)
  | .sendFetched index =>
      match fetchedValue s index with
      | none => some (s, .none)
      | some (g, value) => some (sendForPlacement s g.key value, .none)
  | .sendWritten index =>
      match writtenValue s index with
      | none => some (s, .none)
      | some (w, value) => some (sendForPlacement s w.key value, .none)
  | .fetchForPlacement edge key =>
      match (s.caches edge).get key with
      | none => some (s, .none)
      | some value => some (sendForPlacement s key value, .none)
  | .fetchFromCloudForPlacement key => some (sendForPlacement s key (s.cloud key), .none)
  | .notifyForPlacement index edge =>
      match s.fetchedForPlacement[index]? with
      | none => some (s, .none)
      | some (key, value) => some (notifyForPlacement beaconOf s key value edge, .none)
  | .admitDirectory index =>
      match s.notifications[index]? with
      | none => some (s, .none)
      | some p => do
          let s' ← admitDirectory beaconOf s p
          return ({ s' with notifications := s.notifications.eraseIdx index }, .none)
  | .resendAdmission index => some (resendAdmission beaconOf s index, .none)
  | .admitLocal index isSuccessful =>
      match s.admissions[index]? with
      | none => some (s, .none)
      | some p =>
          if p.id ∈ s.answered then
            some ({ s with admissions := s.admissions.eraseIdx index }, .none)
          else
            some ({ admitLocalEdgeCache s p isSuccessful with
              admissions := s.admissions.eraseIdx index
              answered := p.id :: s.answered }, .none)
  | .evictLocal edge key =>
      if (s.caches edge).isLocalCached key then some (evictLocalEdgeCache s edge key, .none)
      else some (s, .none)
  | .evictDirectory index =>
      match s.evictions[index]? with
      | none => some (s, .none)
      | some (edge, key) => do
          let s' ← evictDirectory beaconOf s edge key
          return ({ s' with evictions := s.evictions.eraseIdx index }, .none)
  | .resendEviction index => some (resendEviction beaconOf s index, .none)

/-! ## Steps that only send -/

/-- The actions that send a value or an admission and change nothing else. -/
def Action.onlySends : Action → Bool
  | .admitFetched _ | .admitWritten _ | .sendFetched _ | .sendWritten _ | .fetchForPlacement _ _
  | .fetchFromCloudForPlacement _ | .notifyForPlacement _ _ | .resendAdmission _ => true
  | _ => false

/-- Only values and notifications on their way differ. -/
structure SameButSent (s s' : State) : Prop where
  cloud : s'.cloud = s.cloud
  caches : s'.caches = s.caches
  beacons : s'.beacons = s.beacons
  responded : s'.responded = s.responded
  gets : s'.gets = s.gets
  writes : s'.writes = s.writes
  admissions : s'.admissions = s.admissions
  answered : s'.answered = s.answered
  evictions : s'.evictions = s.evictions

variable {beaconOf}

theorem sameButSent_of_step {s s' : State} {a : Action} {out : Response} (ha : a.onlySends = true)
    (h : step beaconOf s a = some (s', out)) : SameButSent s s' := by
  cases a with
  | fetchFromCloudForPlacement key =>
    cases h
    constructor <;> rfl
  | resendAdmission index =>
    cases h
    constructor <;> rfl
  | admitFetched _ | admitWritten _ | sendFetched _ | sendWritten _ | fetchForPlacement _ _
  | notifyForPlacement _ _ =>
    simp only [step] at h
    split at h <;> cases h <;> constructor <;> rfl
  | _ => cases ha

end Handlers

end Covered.Edge
