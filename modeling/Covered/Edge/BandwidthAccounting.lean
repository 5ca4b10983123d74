import Covered.Message.MessageType
import Mathlib

/-!
# Bandwidth accounting

A handler counts each message that it receives in a total of its own, by the link over which the
message came and by the type of the message, and merges the usage that a response carries. The total
goes on in the handler's own response, or into the background counter of its edge. This module has
the constructor of a bandwidth usage, the messages, and the commands of which the handlers are made.
What a message costs by its own type and size is `Message.cost`; it says what the accounting is for
and is not taken from the source.
-/

set_option autoImplicit false

namespace Covered.Edge.BandwidthAccounting

open Lib.Checked Message

/-- The sums of counters wrap around as the counters do. -/
scoped instance counterAddCommMonoid : AddCommMonoid UInt64 where
  add_assoc := UInt64.add_assoc
  zero_add := UInt64.zero_add
  add_zero := UInt64.add_zero
  add_comm := UInt64.add_comm
  nsmul := nsmulRec

/-! ## Usage of one message -/

/-- The constructor of a bandwidth usage: a class without bytes has no messages and conversely. -/
def constructUsage (clientEdgeBandwidthBytes crossEdgeBandwidthBytes edgeCloudBandwidthBytes
    clientEdgeMsgcnt crossEdgeMsgcnt edgeCloudMsgcnt : UInt64) (messageType : MessageType)
    (victimSyncsetBandwidthBytes : UInt32) : Option BandwidthUsage := do
  require (clientEdgeBandwidthBytes = 0 ∨ clientEdgeMsgcnt = 0 →
    clientEdgeBandwidthBytes = 0 ∧ clientEdgeMsgcnt = 0)
  require (crossEdgeBandwidthBytes = 0 ∨ crossEdgeMsgcnt = 0 →
    crossEdgeBandwidthBytes = 0 ∧ crossEdgeMsgcnt = 0)
  require (edgeCloudBandwidthBytes = 0 ∨ edgeCloudMsgcnt = 0 →
    edgeCloudBandwidthBytes = 0 ∧ edgeCloudMsgcnt = 0)
  let isDataMessage := messageType.isDataRequest || messageType.isDataResponse
  let isContentDiscoveryMessage := messageType.isDirectoryLookupMessage
  let isDirectoryUpdateMessage := messageType.isDirectoryUpdateMessage
  return fun
    | .clientEdgeBandwidthBytes => clientEdgeBandwidthBytes
    | .crossEdgeControlContentDiscoveryBandwidthBytes =>
        if isDataMessage then 0
        else if isContentDiscoveryMessage then crossEdgeBandwidthBytes
        else 0
    | .crossEdgeControlDirectoryUpdateBandwidthBytes =>
        if isDataMessage then 0
        else if isContentDiscoveryMessage then 0
        else if isDirectoryUpdateMessage then crossEdgeBandwidthBytes
        else 0
    | .crossEdgeControlOthersBandwidthBytes =>
        if isDataMessage then 0
        else if isContentDiscoveryMessage then 0
        else if isDirectoryUpdateMessage then 0
        else crossEdgeBandwidthBytes
    | .crossEdgeDataBandwidthBytes => if isDataMessage then crossEdgeBandwidthBytes else 0
    | .edgeCloudBandwidthBytes => edgeCloudBandwidthBytes
    | .victimSyncsetBandwidthBytes => victimSyncsetBandwidthBytes.toUInt64
    | .clientEdgeMsgcnt => clientEdgeMsgcnt
    | .crossEdgeControlContentDiscoveryMsgcnt =>
        if isDataMessage then 0
        else if isContentDiscoveryMessage then crossEdgeMsgcnt
        else 0
    | .crossEdgeControlDirectoryUpdateMsgcnt =>
        if isDataMessage then 0
        else if isContentDiscoveryMessage then 0
        else if isDirectoryUpdateMessage then crossEdgeMsgcnt
        else 0
    | .crossEdgeControlOthersMsgcnt =>
        if isDataMessage then 0
        else if isContentDiscoveryMessage then 0
        else if isDirectoryUpdateMessage then 0
        else crossEdgeMsgcnt
    | .crossEdgeDataMsgcnt => if isDataMessage then crossEdgeMsgcnt else 0
    | .edgeCloudMsgcnt => edgeCloudMsgcnt

/-- The link of which a handler says that a message came over it. -/
inductive Link where
  | clientEdge
  | crossEdge
  | edgeCloud
deriving DecidableEq

/-- The three ways in which the handlers call the constructor for one message. -/
def usageOver (link : Link) (msgBandwidthSize : UInt32) (messageType : MessageType)
    (victimSyncsetBytes : UInt32) : Option BandwidthUsage :=
  match link with
  | .clientEdge =>
      constructUsage msgBandwidthSize.toUInt64 0 0 1 0 0 messageType victimSyncsetBytes
  | .crossEdge =>
      constructUsage 0 msgBandwidthSize.toUInt64 0 0 1 0 messageType victimSyncsetBytes
  | .edgeCloud =>
      constructUsage 0 0 msgBandwidthSize.toUInt64 0 0 1 messageType victimSyncsetBytes

/-! ## Threads and messages -/

/-- The clients, the edges and the cloud. -/
inductive Node (edgecnt : Nat) where
  | client (idx : Nat)
  | edge (idx : Fin edgecnt)
  | cloud
deriving DecidableEq

def Node.edge? {edgecnt : Nat} : Node edgecnt → Option (Fin edgecnt)
  | .edge idx => some idx
  | _ => none

/-- The threads of a node. Workers have an index in their node. -/
inductive Role where
  | clientWorker (localClientWorkerIdx : Nat)
  | cacheServerWorker (localCacheServerWorkerIdx : Nat)
  | redirectionProcessor
  | invalidationProcessor
  | victimFetchProcessor
  | metadataUpdateProcessor
  | placementProcessor
  | beaconServer
  | dataServer
deriving DecidableEq

structure Thread (edgecnt : Nat) where
  node : Node edgecnt
  role : Role
deriving DecidableEq

variable {edgecnt : Nat}

namespace Thread

def redirectionProcessor (edge : Fin edgecnt) : Thread edgecnt :=
  ⟨.edge edge, .redirectionProcessor⟩

def invalidationProcessor (edge : Fin edgecnt) : Thread edgecnt :=
  ⟨.edge edge, .invalidationProcessor⟩

def victimFetchProcessor (edge : Fin edgecnt) : Thread edgecnt :=
  ⟨.edge edge, .victimFetchProcessor⟩

def metadataUpdateProcessor (edge : Fin edgecnt) : Thread edgecnt :=
  ⟨.edge edge, .metadataUpdateProcessor⟩

def placementProcessor (edge : Fin edgecnt) : Thread edgecnt := ⟨.edge edge, .placementProcessor⟩

def beaconServer (edge : Fin edgecnt) : Thread edgecnt := ⟨.edge edge, .beaconServer⟩

def dataServer : Thread edgecnt := ⟨.cloud, .dataServer⟩

end Thread

/-- The two sockets of a thread: one for what it is asked, one for what it waits for. -/
inductive Socket where
  | recvreq
  | recvrsp
deriving DecidableEq

structure Address (edgecnt : Nat) where
  thread : Thread edgecnt
  socket : Socket
deriving DecidableEq

/-- What the accounting uses of a message. The usage of a request is zero. -/
structure Message (edgecnt : Nat) where
  messageType : MessageType
  sourceAddr : Address edgecnt
  destAddr : Address edgecnt
  msgSeqnum : Nat
  msgBandwidthSize : UInt32
  victimSyncsetBytes : UInt32
  bandwidthUsage : BandwidthUsage

/-! ## What a message costs -/

def isRequest (t : MessageType) : Bool := t.isDataRequest || t.isControlRequest

/-- The link of a message by its type. -/
def linkOf (t : MessageType) : Link :=
  if t.isLocalDataRequest || t.isLocalDataResponse then .clientEdge
  else if t.isGlobalDataRequest || t.isGlobalDataResponse then .edgeCloud
  else .crossEdge

/-- The class of a message by its type: the members for its bytes and for its number. -/
def classOf (t : MessageType) : BandwidthMember × BandwidthMember :=
  match linkOf t with
  | .clientEdge => (.clientEdgeBandwidthBytes, .clientEdgeMsgcnt)
  | .edgeCloud => (.edgeCloudBandwidthBytes, .edgeCloudMsgcnt)
  | .crossEdge =>
      if t.isRedirectedDataRequest || t.isRedirectedDataResponse then
        (.crossEdgeDataBandwidthBytes, .crossEdgeDataMsgcnt)
      else if t.isDirectoryLookupMessage then
        (.crossEdgeControlContentDiscoveryBandwidthBytes, .crossEdgeControlContentDiscoveryMsgcnt)
      else if t.isDirectoryUpdateMessage then
        (.crossEdgeControlDirectoryUpdateBandwidthBytes, .crossEdgeControlDirectoryUpdateMsgcnt)
      else (.crossEdgeControlOthersBandwidthBytes, .crossEdgeControlOthersMsgcnt)

/-- What one message costs: its bytes and one message in its class, and the bytes of its victim
syncset. -/
def Message.cost (m : Message edgecnt) : BandwidthUsage := fun member =>
  if member = (classOf m.messageType).1 then m.msgBandwidthSize.toUInt64
  else if member = (classOf m.messageType).2 then 1
  else if member = .victimSyncsetBandwidthBytes then m.victimSyncsetBytes.toUInt64
  else 0

/-- A message in hand holds what it costs and what it carries. -/
def Message.held (m : Message edgecnt) : BandwidthUsage := m.cost + m.bandwidthUsage

/-- Over the link of its type, a message is counted with what it costs. -/
theorem usageOver_linkOf {m : Message edgecnt} {usage : BandwidthUsage}
    (h : usageOver (linkOf m.messageType) m.msgBandwidthSize m.messageType m.victimSyncsetBytes =
      some usage) : usage = m.cost := by
  have hdata : linkOf m.messageType = .crossEdge →
      (m.messageType.isDataRequest || m.messageType.isDataResponse) =
        (m.messageType.isRedirectedDataRequest || m.messageType.isRedirectedDataResponse) := by
    cases m.messageType <;> decide
  unfold usageOver at h
  cases hlink : linkOf m.messageType with
  | clientEdge =>
    simp only [hlink, constructUsage, bind_eq_some_iff, require_eq_some_iff, pure_eq_some_iff] at h
    obtain ⟨-, -, -, -, -, -, rfl⟩ := h
    funext member
    cases member <;> simp [Message.cost, classOf, hlink]
  | edgeCloud =>
    simp only [hlink, constructUsage, bind_eq_some_iff, require_eq_some_iff, pure_eq_some_iff] at h
    obtain ⟨-, -, -, -, -, -, rfl⟩ := h
    funext member
    cases member <;> simp [Message.cost, classOf, hlink]
  | crossEdge =>
    simp only [hlink, constructUsage, bind_eq_some_iff, require_eq_some_iff, pure_eq_some_iff] at h
    obtain ⟨-, -, -, -, -, -, rfl⟩ := h
    -- the three tests of the constructor choose one of the four classes between edges
    rw [hdata hlink]
    funext member
    unfold Message.cost classOf
    rw [hlink]
    by_cases hredirected : (m.messageType.isRedirectedDataRequest ||
        m.messageType.isRedirectedDataResponse) = true
    · cases member <;> simp [hredirected]
    · by_cases hlookup : m.messageType.isDirectoryLookupMessage = true
      · cases member <;> simp [hredirected, hlookup]
      · by_cases hupdate : m.messageType.isDirectoryUpdateMessage = true
        · cases member <;> simp [hredirected, hlookup, hupdate]
        · cases member <;> simp [hredirected, hlookup, hupdate]

/-! ## Commands -/

/-- The steps of a handler. `beginExchange` takes the sequence number `cur_msg_seqnum` of the
exchanges that follow; exchanges nest as the calls do. -/
inductive Command (edgecnt : Nat) where
  | beginExchange
  | endExchange
  /-- Send a request whose response the handler waits for. -/
  | send (messageType : MessageType) (dest : Thread edgecnt)
  /-- Send a background request, with the beacon server of the edge as its source. -/
  | notify (messageType : MessageType) (dest : Thread edgecnt)
  /-- Wait for a response with the current sequence number; others are stale. -/
  | receive (messageTypes : List MessageType)
  /-- Count the request in hand and be done with it. -/
  | countRequest (link : Link)
  /-- Count the response in hand with the usage it carries and be done with it. -/
  | countResponse (link : Link)
  /-- Be done with the response in hand. -/
  | releaseResponse
  | receiveFinishBlockRequest
  | countFinishBlockRequest
  | replyFinishBlockRequest
  | embedBackgroundCounterIfNotEmpty
  | updateBackgroundCounter
  | addBackgroundEvents
  | pushLocalCacheAdmission
  | reply (messageType : MessageType)
  /-- A client adds the usage of its response to its statistics. -/
  | updateBandwidthUsage

/-- What is left of a handler. -/
abbrev Script (edgecnt : Nat) := List (Command edgecnt)

end Covered.Edge.BandwidthAccounting
