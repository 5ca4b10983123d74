import Covered.Edge.FlowAccounting
import Covered.Lib.Execution
import Covered.Lib.IndexedSum

/-!
# Conservation of bandwidth usage

The handlers of all threads run step by step in any order. Usage is held by the statistics of the
clients, by the background counters, by the handlers in progress and by the messages in flight. A
received message that has been counted nowhere and a total that has been overwritten are what the
sum of these misses; `Clean` excludes the three steps at which that happens.

The scripts of the functions account for what they receive by `FlowAccounting`; here each command is
shown to keep the sum.
-/

set_option autoImplicit false

namespace Covered.Edge.BandwidthConservation

open Edge.BandwidthAccounting Edge.FlowAccounting Edge.MessageFlows Lib.Checked Lib.Execution
open BandwidthConservation
open Option hiding bind_eq_some_iff
open Lib.IndexedSum Message

/-! ## State -/

/-- Usage of background work at an edge, to be embedded into the responses of its beacon server. -/
structure BackgroundCounter where
  isEmpty : Bool
  bandwidthUsage : BandwidthUsage

namespace BackgroundCounter

def empty : BackgroundCounter := ⟨true, 0⟩

def updateBandwidthUsage (counter : BackgroundCounter) (other : BandwidthUsage) :
    BackgroundCounter :=
  ⟨false, counter.bandwidthUsage + other⟩

def addEvents (counter : BackgroundCounter) : BackgroundCounter :=
  { counter with isEmpty := false }

/-- The usage given is overwritten unless the counter is empty. -/
def loadAndReset (counter : BackgroundCounter) (bandwidthUsage : BandwidthUsage) :
    BackgroundCounter × BandwidthUsage :=
  if counter.isEmpty then (counter, bandwidthUsage) else (empty, counter.bandwidthUsage)

end BackgroundCounter

variable {edgecnt : Nat}

/-- A handler in progress: what is left of it, its nested sequence numbers, the messages that it has
received and not yet released, and its totals. `source` is the source address and the sequence
number of the message that it handles, `blockedBy` those of the last request to finish blocking. -/
structure Handler (edgecnt : Nat) where
  thread : Thread edgecnt
  source : Option (Address edgecnt × Nat)
  script : Script edgecnt
  msgSeqnums : List Nat
  inHand : List (Message edgecnt)
  totalBandwidthUsage : BandwidthUsage
  tmpBandwidthUsage : BandwidthUsage
  blockedBy : Option (Address edgecnt × Nat)

structure State (edgecnt : Nat) where
  nodeMsgSeqnum : Node edgecnt → Nat
  inFlight : List (Message edgecnt)
  handlers : List (Handler edgecnt)
  counters : Fin edgecnt → BackgroundCounter
  localCacheAdmissions : Fin edgecnt → Nat
  /-- The statistics of the clients. -/
  reported : BandwidthUsage
  /-- All messages received so far. -/
  received : List (Message edgecnt)

def State.initial : State edgecnt :=
  { nodeMsgSeqnum := fun _ => 0
    inFlight := []
    handlers := []
    counters := fun _ => .empty
    localCacheAdmissions := fun _ => 0
    reported := 0
    received := [] }

/-! ## Steps -/

def Handler.start (thread : Thread edgecnt) (script : Script edgecnt)
    (m : Option (Message edgecnt)) : Handler edgecnt :=
  { thread := thread
    source := m.map fun m => (m.sourceAddr, m.msgSeqnum)
    script := script
    msgSeqnums := []
    inHand := m.toList
    totalBandwidthUsage := 0
    tmpBandwidthUsage := 0
    blockedBy := none }

def State.isIdle (s : State edgecnt) (thread : Thread edgecnt) : Bool :=
  s.handlers.all fun h => h.thread ≠ thread

/-- A handler with its new state, and the rest of the state as it is. -/
def State.setHandler (s : State edgecnt) (i : Nat) (h : Handler edgecnt) : State edgecnt :=
  { s with handlers := s.handlers.set i h }

def State.push (s : State edgecnt) (m : Message edgecnt) : State edgecnt :=
  { s with inFlight := m :: s.inFlight }

/-- A message leaves the network. -/
def State.pop (s : State edgecnt) (pick : Nat) (m : Message edgecnt) : State edgecnt :=
  { s with inFlight := s.inFlight.eraseIdx pick, received := m :: s.received }

def State.setCounter (s : State edgecnt) (edge : Fin edgecnt) (counter : BackgroundCounter) :
    State edgecnt :=
  { s with counters := Function.update s.counters edge counter }

/-- What the network adds to a step: which message is received, and the size of one that is sent. -/
structure Environment where
  pick : Nat
  msgBandwidthSize : UInt32
  victimSyncsetBytes : UInt32

/-- The command of handler `i` in state `h`, with `rest` left after it. -/
def perform (s : State edgecnt) (i : Nat) (h : Handler edgecnt) (rest : Script edgecnt)
    (env : Environment) : Command edgecnt → Option (State edgecnt)
  | .beginExchange =>
      let node := h.thread.node
      let seqnum := s.nodeMsgSeqnum node
      some (({ s with
        nodeMsgSeqnum := Function.update s.nodeMsgSeqnum node (seqnum + 1) }).setHandler i
          { h with script := rest, msgSeqnums := seqnum :: h.msgSeqnums })
  | .endExchange =>
      some (s.setHandler i { h with script := rest, msgSeqnums := h.msgSeqnums.tail })
  | .send messageType dest => do
      let seqnum ← h.msgSeqnums.head?
      some ((s.push
        { messageType := messageType
          sourceAddr := ⟨h.thread, .recvrsp⟩
          destAddr := ⟨dest, .recvreq⟩
          msgSeqnum := seqnum
          msgBandwidthSize := env.msgBandwidthSize
          victimSyncsetBytes := env.victimSyncsetBytes
          bandwidthUsage := 0 }).setHandler i { h with script := rest })
  | .notify messageType dest => do
      let edge ← h.thread.node.edge?
      some ((s.push
        { messageType := messageType
          sourceAddr := ⟨.beaconServer edge, .recvreq⟩
          destAddr := ⟨dest, .recvreq⟩
          msgSeqnum := (h.source.map Prod.snd).getD 0
          msgBandwidthSize := env.msgBandwidthSize
          victimSyncsetBytes := env.victimSyncsetBytes
          bandwidthUsage := 0 }).setHandler i { h with script := rest })
  | .receive messageTypes => do
      let m ← s.inFlight[env.pick]?
      let seqnum ← h.msgSeqnums.head?
      require (m.destAddr = ⟨h.thread, .recvrsp⟩)
      -- a stale response is released, and the handler waits for the next one
      if m.msgSeqnum ≠ seqnum then some (s.pop env.pick m)
      else
        require (m.messageType ∈ messageTypes)
        some ((s.pop env.pick m).setHandler i { h with script := rest, inHand := m :: h.inHand })
  | .countRequest link => do
      let m ← h.inHand.head?
      let usage ← usageOver link m.msgBandwidthSize m.messageType m.victimSyncsetBytes
      some (s.setHandler i
        { h with
          script := rest
          inHand := h.inHand.tail
          totalBandwidthUsage := h.totalBandwidthUsage + usage })
  | .countResponse link => do
      let m ← h.inHand.head?
      let usage ← usageOver link m.msgBandwidthSize m.messageType m.victimSyncsetBytes
      some (s.setHandler i
        { h with
          script := rest
          inHand := h.inHand.tail
          totalBandwidthUsage := h.totalBandwidthUsage + (m.bandwidthUsage + usage) })
  | .releaseResponse => do
      let _ ← h.inHand.head?
      some (s.setHandler i { h with script := rest, inHand := h.inHand.tail })
  | .receiveFinishBlockRequest => do
      let m ← s.inFlight[env.pick]?
      require (m.destAddr = ⟨h.thread, .recvreq⟩)
      require (m.messageType = .coveredFinishBlockRequest)
      some ((s.pop env.pick m).setHandler i { h with script := rest, inHand := m :: h.inHand })
  | .countFinishBlockRequest => do
      let m ← h.inHand.head?
      let usage ← usageOver .crossEdge m.msgBandwidthSize m.messageType m.victimSyncsetBytes
      some (s.setHandler i
        { h with
          script := rest
          inHand := h.inHand.tail
          tmpBandwidthUsage := h.tmpBandwidthUsage + usage
          blockedBy := some (m.sourceAddr, m.msgSeqnum) })
  | .replyFinishBlockRequest => do
      let source ← h.blockedBy
      some ((s.push
        { messageType := .coveredFinishBlockResponse
          sourceAddr := ⟨h.thread, .recvreq⟩
          destAddr := source.1
          msgSeqnum := source.2
          msgBandwidthSize := env.msgBandwidthSize
          victimSyncsetBytes := env.victimSyncsetBytes
          bandwidthUsage := h.tmpBandwidthUsage }).setHandler i
        { h with script := rest, tmpBandwidthUsage := 0 })
  | .embedBackgroundCounterIfNotEmpty => do
      let edge ← h.thread.node.edge?
      let loaded := (s.counters edge).loadAndReset h.totalBandwidthUsage
      some ((s.setCounter edge loaded.1).setHandler i
        { h with script := rest, totalBandwidthUsage := loaded.2 })
  | .updateBackgroundCounter => do
      let edge ← h.thread.node.edge?
      some ((s.setCounter edge
        ((s.counters edge).updateBandwidthUsage h.totalBandwidthUsage)).setHandler i
        { h with script := rest, totalBandwidthUsage := 0 })
  | .addBackgroundEvents => do
      let edge ← h.thread.node.edge?
      some ((s.setCounter edge (s.counters edge).addEvents).setHandler i { h with script := rest })
  | .pushLocalCacheAdmission => do
      let edge ← h.thread.node.edge?
      some (({ s with
        localCacheAdmissions := Function.update s.localCacheAdmissions edge
          (s.localCacheAdmissions edge + 1) }).setHandler i { h with script := rest })
  | .reply messageType => do
      let source ← h.source
      some ((s.push
        { messageType := messageType
          sourceAddr := ⟨h.thread, .recvreq⟩
          destAddr := source.1
          msgSeqnum := source.2
          msgBandwidthSize := env.msgBandwidthSize
          victimSyncsetBytes := env.victimSyncsetBytes
          bandwidthUsage := h.totalBandwidthUsage }).setHandler i
        { h with script := rest, totalBandwidthUsage := 0 })
  | .updateBandwidthUsage =>
      some (({ s with reported := s.reported + h.totalBandwidthUsage }).setHandler i
        { h with script := rest, totalBandwidthUsage := 0 })

/-- `issue` is a client worker that takes its next item, `accept` and `acceptGlobal` are an edge and
the cloud that take a message from the network, and `startAdmission` is a placement processor that
takes an object from its queue. `advance` is the next command of a handler, `finish` its end. -/
inductive Action (edgecnt : Nat) where
  | issue (client localClientWorkerIdx : Nat) (item : WorkloadItem) (edge : Fin edgecnt)
      (localCacheServerWorkerIdx : Nat)
  | accept (edge : Fin edgecnt) (role : Role) (pick : Nat) (handling : Handling edgecnt)
  | acceptGlobal (pick : Nat)
  | startAdmission (edge : Fin edgecnt) (evictions : List (EvictionBatch edgecnt))
  | advance (handler : Nat) (env : Environment)
  | finish (handler : Nat)

def next (s : State edgecnt) : Action edgecnt → Option (State edgecnt)
  | .issue client localClientWorkerIdx item edge localCacheServerWorkerIdx => do
      let thread : Thread edgecnt := ⟨.client client, .clientWorker localClientWorkerIdx⟩
      require (s.isIdle thread = true)
      some { s with
        handlers := Handler.start thread
          (issueItemToEdge item ⟨.edge edge, .cacheServerWorker localCacheServerWorkerIdx⟩) none ::
            s.handlers }
  | .accept edge role pick handling => do
      let m ← s.inFlight[pick]?
      require (m.destAddr = ⟨⟨.edge edge, role⟩, .recvreq⟩)
      require (s.isIdle ⟨.edge edge, role⟩ = true)
      require (handling.runsOn role = true ∧ m.messageType ∈ handling.messageTypes)
      some { s.pop pick m with
        handlers := Handler.start ⟨.edge edge, role⟩ (handling.script edge m.messageType)
          (some m) :: s.handlers }
  | .acceptGlobal pick => do
      let m ← s.inFlight[pick]?
      require (m.destAddr = ⟨.dataServer, .recvreq⟩)
      require (s.isIdle .dataServer = true)
      require (m.messageType ∈ globalRequests)
      some { s.pop pick m with
        handlers := Handler.start .dataServer (processGlobalRequest m.messageType) (some m) ::
          s.handlers }
  | .startAdmission edge evictions => do
      require (s.isIdle (.placementProcessor edge) = true)
      require (0 < s.localCacheAdmissions edge)
      some { s with
        localCacheAdmissions := Function.update s.localCacheAdmissions edge
          (s.localCacheAdmissions edge - 1)
        handlers := Handler.start (.placementProcessor edge)
          (processLocalCacheAdmission edge evictions) none :: s.handlers }
  | .advance i env => do
      let h ← s.handlers[i]?
      match h.script with
      | [] => none
      | command :: rest => perform s i h rest env command
  | .finish i => do
      let h ← s.handlers[i]?
      require (h.script = [])
      -- the totals and messages of the handler go with it
      some { s with handlers := s.handlers.eraseIdx i }

def step (s : State edgecnt) (a : Action edgecnt) : Option (State edgecnt × Unit) :=
  (next s a).map fun t => (t, ())

/-! ## What is held -/

def Handler.held (h : Handler edgecnt) : BandwidthUsage :=
  h.totalBandwidthUsage + h.tmpBandwidthUsage + (h.inHand.map Message.held).sum

/-- The usage reported to clients, and the usage in background counters, in handlers in progress and
in responses in flight. -/
def State.held (s : State edgecnt) : BandwidthUsage :=
  s.reported + ∑ edge, (s.counters edge).bandwidthUsage + (s.handlers.map Handler.held).sum +
    (s.inFlight.map Message.bandwidthUsage).sum

/-- What the messages received so far cost, each by its own type and size. -/
def State.cost (s : State edgecnt) : BandwidthUsage := (s.received.map Message.cost).sum

def Conserved (s : State edgecnt) : Prop := s.held = s.cost

/-! ## Steps that lose no usage -/

/-- The command neither embeds a background counter that is not empty, nor releases a response
uncounted, nor takes a stale response. -/
def isClean (s : State edgecnt) (h : Handler edgecnt) (env : Environment) :
    Command edgecnt → Bool
  | .embedBackgroundCounterIfNotEmpty =>
      h.thread.node.edge?.all fun edge => (s.counters edge).isEmpty
  | .releaseResponse => false
  | .receive _ =>
      s.inFlight[env.pick]?.all fun m => h.msgSeqnums.head?.all fun seqnum => m.msgSeqnum == seqnum
  | _ => true

def Clean (s : State edgecnt) : Action edgecnt → Prop
  | .advance i env =>
      (s.handlers[i]?.all fun h => h.script.head?.all fun command => isClean s h env command) = true
  | _ => True

instance (s : State edgecnt) : (a : Action edgecnt) → Decidable (Clean s a)
  | .advance _ _ => inferInstanceAs (Decidable (_ = true))
  | .issue _ _ _ _ _ => inferInstanceAs (Decidable True)
  | .accept _ _ _ _ => inferInstanceAs (Decidable True)
  | .acceptGlobal _ => inferInstanceAs (Decidable True)
  | .startAdmission _ _ => inferInstanceAs (Decidable True)
  | .finish _ => inferInstanceAs (Decidable True)

/-! ## Invariant -/

/-- A request carries no usage. -/
def CarriesNone (m : Message edgecnt) : Prop :=
  isRequest m.messageType = true → m.bandwidthUsage = 0

/-- What is left of the handler accounts for what it holds. -/
def Handler.Accounts (h : Handler edgecnt) : Prop :=
  ∃ hand total tmp, Closes h.script hand total tmp ∧
    List.Forall₂ (fun m types => m.messageType ∈ types) h.inHand hand ∧
    (total = false → h.totalBandwidthUsage = 0) ∧ (tmp = false → h.tmpBandwidthUsage = 0) ∧
    ∀ m ∈ h.inHand, CarriesNone m

structure Inv (s : State edgecnt) : Prop where
  conserved : Conserved s
  inFlight : ∀ m ∈ s.inFlight, CarriesNone m
  handlers : ∀ h ∈ s.handlers, h.Accounts

/-- What is held outside of the handlers. -/
def State.others (s : State edgecnt) : BandwidthUsage :=
  s.reported + ∑ edge, (s.counters edge).bandwidthUsage +
    (s.inFlight.map Message.bandwidthUsage).sum

theorem State.held_eq (s : State edgecnt) :
    s.held = s.others + (s.handlers.map Handler.held).sum := by
  unfold State.held State.others
  abel

/-! ### Parts of the state -/

section Parts

variable {s : State edgecnt} {pick i : Nat} {m : Message edgecnt} {h : Handler edgecnt}

theorem others_setHandler : (s.setHandler i h).others = s.others := rfl

theorem others_push : (s.push m).others = m.bandwidthUsage + s.others := by
  simp only [State.others, State.push, List.map_cons, List.sum_cons]
  abel

/-- A message that leaves the network takes what it carries with it. -/
theorem others_pop (hm : s.inFlight[pick]? = some m) :
    s.others = m.bandwidthUsage + (s.pop pick m).others := by
  simp only [State.others, State.pop]
  rw [sum_eraseIdx hm]
  abel

theorem cost_pop : (s.pop pick m).cost = m.cost + s.cost := by
  simp only [State.cost, State.pop, List.map_cons, List.sum_cons]

/-- What is held outside of the handlers, without one background counter. -/
theorem others_setCounter (s : State edgecnt) (edge : Fin edgecnt) : ∃ rest : BandwidthUsage,
    s.others = (s.counters edge).bandwidthUsage + rest ∧
      ∀ counter, (s.setCounter edge counter).others = counter.bandwidthUsage + rest := by
  refine ⟨s.reported + ∑ e ∈ Finset.univ.erase edge, (s.counters e).bandwidthUsage +
    (s.inFlight.map Message.bandwidthUsage).sum, ?_, ?_⟩
  · have hsum := sum_family (f := BackgroundCounter.bandwidthUsage) (g := s.counters) edge
    unfold State.others
    rw [hsum]
    abel
  · intro counter
    have hsum := sum_update (f := BackgroundCounter.bandwidthUsage) (g := s.counters) edge counter
    simp only [State.others, State.setCounter]
    rw [hsum]
    abel

theorem carriesNone_push (hs : ∀ m ∈ s.inFlight, CarriesNone m) (hm : CarriesNone m) :
    ∀ m' ∈ (s.push m).inFlight, CarriesNone m' := by
  intro m' hmem
  rcases List.mem_cons.1 hmem with rfl | hmem
  · exact hm
  · exact hs m' hmem

theorem carriesNone_pop (hs : ∀ m ∈ s.inFlight, CarriesNone m) :
    ∀ m' ∈ (s.pop pick m).inFlight, CarriesNone m' :=
  fun m' hmem => hs m' (List.mem_of_mem_eraseIdx hmem)

end Parts

/-- A step of one handler: of what is held and has `arrived`, all but `lost` is still held. -/
theorem held_add_lost {s t : State edgecnt} (hconserved : Conserved s) {i : Nat}
    {h h' : Handler edgecnt} (hi : s.handlers[i]? = some h) (arrived lost : BandwidthUsage)
    (ht : t.handlers = s.handlers.set i h') (hcost : t.cost = arrived + s.cost)
    (hheld : t.others + h'.held + lost = arrived + (s.others + h.held)) :
    t.held + lost = t.cost := by
  unfold Conserved at hconserved
  rw [State.held_eq, sum_eraseIdx hi] at hconserved
  calc t.held + lost
      = t.others + h'.held + lost + ((s.handlers.eraseIdx i).map Handler.held).sum := by
        rw [State.held_eq, ht, sum_set hi]
        abel
    _ = arrived + (s.others + (h.held + ((s.handlers.eraseIdx i).map Handler.held).sum)) := by
        rw [hheld]
        abel
    _ = t.cost := by rw [hconserved, hcost]

/-- A command that moves usage, of which `arrived` has come with a message. -/
theorem Inv.moved {s t : State edgecnt} (hinv : Inv s) {i : Nat} {h h' : Handler edgecnt}
    (hi : s.handlers[i]? = some h) (arrived : BandwidthUsage)
    (ht : t.handlers = s.handlers.set i h') (hcost : t.cost = arrived + s.cost)
    (hheld : t.others + h'.held = arrived + (s.others + h.held))
    (hinFlight : ∀ m ∈ t.inFlight, CarriesNone m) (hh' : h'.Accounts) : Inv t := by
  constructor
  · have hlost : t.held + 0 = t.cost := by
      apply held_add_lost hinv.conserved hi arrived 0 ht hcost
      rw [add_zero, hheld]
    rw [add_zero] at hlost
    exact hlost
  · exact hinFlight
  · intro h'' hmem
    rw [ht] at hmem
    rcases mem_set_or hmem with rfl | hmem
    · exact hh'
    · exact hinv.handlers h'' hmem

/-! ### Commands -/

section Commands

variable {s t : State edgecnt} {i : Nat} {h : Handler edgecnt} {rest : Script edgecnt}
  {command : Command edgecnt} {env : Environment}

/-- A command that moves no usage. -/
theorem Inv.keep (hinv : Inv s) (hi : s.handlers[i]? = some h)
    (hscript : h.script = command :: rest)
    (hcloses : ∀ hand total tmp, Closes (command :: rest) hand total tmp →
      Closes rest hand total tmp) (msgSeqnums : List Nat)
    (ht : t.handlers = s.handlers.set i { h with script := rest, msgSeqnums := msgSeqnums })
    (hcost : t.cost = s.cost) (hothers : t.others = s.others)
    (hinFlight : ∀ m ∈ t.inFlight, CarriesNone m) : Inv t := by
  obtain ⟨hand, total, tmp, hc, haccounts⟩ := hinv.handlers h (List.mem_of_getElem? hi)
  rw [hscript] at hc
  apply hinv.moved hi 0 ht
  · rw [hcost, zero_add]
  · rw [hothers, zero_add]
    rfl
  · exact hinFlight
  · exact ⟨hand, total, tmp, hcloses _ _ _ hc, haccounts⟩

/-- A command that passes the total of the handler on. -/
theorem Inv.passOn (hinv : Inv s) (hi : s.handlers[i]? = some h)
    (hscript : h.script = command :: rest)
    (hcloses : ∀ hand total tmp, Closes (command :: rest) hand total tmp →
      Closes rest hand false tmp)
    (ht : t.handlers = s.handlers.set i { h with script := rest, totalBandwidthUsage := 0 })
    (hcost : t.cost = s.cost) (hothers : t.others = h.totalBandwidthUsage + s.others)
    (hinFlight : ∀ m ∈ t.inFlight, CarriesNone m) : Inv t := by
  obtain ⟨hand, total, tmp, hc, hhand, -, haccounts⟩ :=
    hinv.handlers h (List.mem_of_getElem? hi)
  rw [hscript] at hc
  apply hinv.moved hi 0 ht
  · rw [hcost, zero_add]
  · rw [hothers]
    unfold Handler.held
    rw [zero_add (h.tmpBandwidthUsage), zero_add]
    abel
  · exact hinFlight
  · exact ⟨hand, false, tmp, hcloses _ _ _ hc, hhand, fun _ => rfl, haccounts⟩

variable {m : Message edgecnt}

section Count

variable (hinv : Inv s) (hi : s.handlers[i]? = some h) (hscript : h.script = command :: rest)
include hinv hi hscript

/-- A message in hand is counted into the total. -/
theorem Inv.count {inHand : List (Message edgecnt)} (hinHand : h.inHand = m :: inHand)
    (hcloses : ∀ types hand total tmp, Closes (command :: rest) (types :: hand) total tmp →
      Closes rest hand true tmp) :
    Inv (s.setHandler i
      { h with
        script := rest
        inHand := inHand
        totalBandwidthUsage := h.totalBandwidthUsage + m.held }) := by
  obtain ⟨hand, total, tmp, hc, hhand, -, htmp, hnone⟩ :=
    hinv.handlers h (List.mem_of_getElem? hi)
  rw [hscript] at hc
  rw [hinHand] at hhand hnone
  cases hhand with
  | cons hm hhand =>
    apply hinv.moved hi 0 rfl
    · exact (zero_add _).symm
    · show s.others + _ = _
      simp only [Handler.held, hinHand, List.map_cons, List.sum_cons, zero_add]
      abel
    · exact hinv.inFlight
    · refine ⟨_, true, tmp, hcloses _ _ _ _ hc, hhand, ?_, htmp, ?_⟩
      · intro hfalse
        exact Bool.noConfusion hfalse
      · intro m' hmem
        exact hnone m' (List.mem_cons_of_mem _ hmem)

/-- A message is taken from the network. -/
theorem Inv.take (hm : s.inFlight[env.pick]? = some m) {types : List MessageType}
    (htypes : m.messageType ∈ types)
    (hcloses : ∀ hand total tmp, Closes (command :: rest) hand total tmp →
      Closes rest (types :: hand) total tmp) :
    Inv ((s.pop env.pick m).setHandler i { h with script := rest, inHand := m :: h.inHand }) := by
  obtain ⟨hand, total, tmp, hc, hhand, htotal, htmp, hnone⟩ :=
    hinv.handlers h (List.mem_of_getElem? hi)
  rw [hscript] at hc
  have hcost : (s.pop env.pick m).cost = m.cost + s.cost := cost_pop
  apply hinv.moved hi m.cost rfl
  · exact hcost
  · show (s.pop env.pick m).others + _ = _
    rw [others_pop hm]
    simp only [Handler.held, List.map_cons, List.sum_cons, Message.held]
    abel
  · intro m' hmem
    exact carriesNone_pop (m := m) hinv.inFlight m' hmem
  · refine ⟨_, total, tmp, hcloses _ _ _ hc, .cons htypes hhand, htotal, htmp, ?_⟩
    intro m' hmem
    rcases List.mem_cons.1 hmem with rfl | hmem
    · exact hinv.inFlight _ (List.mem_of_getElem? hm)
    · exact hnone m' hmem

/-- What the script says of the message that the handler has in hand. -/
theorem Inv.inHand (hm : h.inHand.head? = some m) :
    h.inHand = m :: h.inHand.tail ∧ CarriesNone m ∧ ∃ types hand total tmp,
      Closes (command :: rest) (types :: hand) total tmp ∧ m.messageType ∈ types := by
  obtain ⟨hand, total, tmp, hc, hhand, -, -, hnone⟩ := hinv.handlers h (List.mem_of_getElem? hi)
  rw [hscript] at hc
  cases hlist : h.inHand with
  | nil =>
    rw [hlist] at hm
    cases hm
  | cons m' inHand =>
    rw [hlist] at hm hhand hnone
    obtain rfl := some.inj hm
    cases hhand with
    | cons htypes hhand =>
      exact ⟨rfl, hnone _ (List.mem_cons_self ..), _, _, total, tmp, hc, htypes⟩

end Count

/-- A request carries nothing, so that its own cost is all that it holds. -/
theorem held_of_request {usage : BandwidthUsage} {link : Link} (hnone : CarriesNone m)
    (hrequest : isRequest m.messageType = true) (hlink : linkOf m.messageType = link)
    (husage : usageOver link m.msgBandwidthSize m.messageType m.victimSyncsetBytes = some usage) :
    usage = m.held := by
  subst hlink
  rw [usageOver_linkOf husage, Message.held, hnone hrequest, add_zero]

/-- A request to finish blocking is counted into the total for the answer to it. -/
theorem Inv.countFinishBlock (hinv : Inv s) (hi : s.handlers[i]? = some h)
    (hscript : h.script = .countFinishBlockRequest :: rest) (hm : h.inHand.head? = some m)
    {usage : BandwidthUsage}
    (husage : usageOver .crossEdge m.msgBandwidthSize m.messageType m.victimSyncsetBytes =
      some usage) (blockedBy : Option (Address edgecnt × Nat)) :
    Inv (s.setHandler i
      { h with
        script := rest
        inHand := h.inHand.tail
        tmpBandwidthUsage := h.tmpBandwidthUsage + usage
        blockedBy := blockedBy }) := by
  obtain ⟨hinHand, -⟩ := hinv.inHand hi hscript hm
  obtain ⟨hand, total, tmp, hc, hhand, htotal, -, hnone⟩ :=
    hinv.handlers h (List.mem_of_getElem? hi)
  rw [hscript] at hc
  rw [hinHand] at hhand hnone
  cases hhand with
  | cons htypes hhand =>
    obtain ⟨hrequests, -, hrest⟩ := hc
    obtain ⟨hrequest, hlink⟩ := hrequests _ htypes
    have hheld : usage = m.held :=
      held_of_request (hnone m (List.mem_cons_self ..)) hrequest hlink husage
    apply hinv.moved hi 0 rfl
    · exact (zero_add _).symm
    · show s.others + _ = _
      have hsum : (h.inHand.map Message.held).sum =
          m.held + (h.inHand.tail.map Message.held).sum := by
        conv_lhs => rw [hinHand]
        rw [List.map_cons, List.sum_cons]
      simp only [Handler.held, hsum, hheld, zero_add]
      abel
    · exact hinv.inFlight
    · refine ⟨_, total, true, hrest, hhand, htotal, ?_, ?_⟩
      · intro hfalse
        exact Bool.noConfusion hfalse
      · intro m' hmem
        exact hnone m' (List.mem_cons_of_mem _ hmem)

/-- The answer to a request to finish blocking takes its total along. -/
theorem Inv.replyFinishBlock (hinv : Inv s) (hi : s.handlers[i]? = some h)
    (hscript : h.script = .replyFinishBlockRequest :: rest)
    (ht : t.handlers = s.handlers.set i { h with script := rest, tmpBandwidthUsage := 0 })
    (hcost : t.cost = s.cost) (hothers : t.others = h.tmpBandwidthUsage + s.others)
    (hinFlight : ∀ m ∈ t.inFlight, CarriesNone m) : Inv t := by
  obtain ⟨hand, total, tmp, hc, hhand, htotal, -, hnone⟩ :=
    hinv.handlers h (List.mem_of_getElem? hi)
  rw [hscript] at hc
  apply hinv.moved hi 0 ht
  · rw [hcost, zero_add]
  · rw [hothers]
    unfold Handler.held
    rw [add_zero, zero_add]
    abel
  · exact hinFlight
  · exact ⟨hand, total, false, hc, hhand, htotal, fun _ => rfl, hnone⟩

/-- With an empty counter, embedding changes nothing. -/
theorem embed_of_isEmpty (s : State edgecnt) (edge : Fin edgecnt) (usage : BandwidthUsage)
    (hempty : (s.counters edge).isEmpty = true) :
    s.setCounter edge ((s.counters edge).loadAndReset usage).1 = s ∧
      ((s.counters edge).loadAndReset usage).2 = usage := by
  unfold BackgroundCounter.loadAndReset
  rw [if_pos hempty]
  refine ⟨?_, rfl⟩
  unfold State.setCounter
  rw [Function.update_eq_self]

/-- Every command of a clean step keeps the sum. -/
theorem Inv.performed (hinv : Inv s) (hi : s.handlers[i]? = some h)
    (hscript : h.script = command :: rest) (hclean : isClean s h env command = true)
    (hperform : perform s i h rest env command = some t) : Inv t := by
  cases command with
  | beginExchange =>
    obtain rfl := some.inj hperform
    exact hinv.keep hi hscript (fun _ _ _ hc => hc) (s.nodeMsgSeqnum h.thread.node :: h.msgSeqnums)
      rfl rfl rfl hinv.inFlight
  | endExchange =>
    obtain rfl := some.inj hperform
    exact hinv.keep hi hscript (fun _ _ _ hc => hc) h.msgSeqnums.tail rfl rfl rfl hinv.inFlight
  | send messageType dest =>
    simp only [perform, bind_eq_some_iff, some.injEq]
      at hperform
    obtain ⟨seqnum, -, rfl⟩ := hperform
    refine hinv.keep hi hscript (fun _ _ _ hc => hc) h.msgSeqnums rfl rfl ?_ ?_
    · rw [others_setHandler, others_push]
      exact zero_add _
    · exact carriesNone_push hinv.inFlight fun _ => rfl
  | notify messageType dest =>
    simp only [perform, bind_eq_some_iff, some.injEq]
      at hperform
    obtain ⟨edge, -, rfl⟩ := hperform
    refine hinv.keep hi hscript (fun _ _ _ hc => hc) h.msgSeqnums rfl rfl ?_ ?_
    · rw [others_setHandler, others_push]
      exact zero_add _
    · exact carriesNone_push hinv.inFlight fun _ => rfl
  | receive messageTypes =>
    simp only [perform, bind_eq_bind, Option.bind_eq_some_iff, require_eq_some_iff]
      at hperform
    obtain ⟨m, hm, seqnum, hseqnum, -, -, hperform⟩ := hperform
    simp only [isClean, hm, hseqnum, all_some, beq_iff_eq] at hclean
    -- a response with another sequence number would be lost
    rw [if_neg (not_not.2 hclean)] at hperform
    simp only [Option.bind_eq_some_iff, require_eq_some_iff, some.injEq] at hperform
    obtain ⟨-, htypes, rfl⟩ := hperform
    exact hinv.take hi hscript hm htypes fun _ _ _ hc => hc
  | countRequest link =>
    simp only [perform, bind_eq_some_iff, some.injEq]
      at hperform
    obtain ⟨m, hm, usage, husage, rfl⟩ := hperform
    obtain ⟨hinHand, hnone, types, hand, total, tmp, hc, htypes⟩ := hinv.inHand hi hscript hm
    obtain ⟨hrequest, hlink⟩ := hc.1 _ htypes
    rw [held_of_request hnone hrequest hlink husage]
    exact hinv.count hi hscript hinHand fun _ _ _ _ hc => hc.2.2
  | countResponse link =>
    simp only [perform, bind_eq_some_iff, some.injEq]
      at hperform
    obtain ⟨m, hm, usage, husage, rfl⟩ := hperform
    obtain ⟨hinHand, -, types, hand, total, tmp, hc, htypes⟩ := hinv.inHand hi hscript hm
    have hlink : linkOf m.messageType = link := hc.1 _ htypes
    subst hlink
    have hheld : m.bandwidthUsage + usage = m.held := by
      rw [usageOver_linkOf husage, add_comm, Message.held]
    rw [hheld]
    exact hinv.count hi hscript hinHand fun _ _ _ _ hc => hc.2.2
  | releaseResponse => exact Bool.noConfusion hclean
  | receiveFinishBlockRequest =>
    simp only [perform, bind_eq_some_iff, require_eq_some_iff, some.injEq] at hperform
    obtain ⟨m, hm, -, -, -, htype, rfl⟩ := hperform
    exact hinv.take hi hscript hm (List.mem_singleton.2 htype) fun _ _ _ hc => hc
  | countFinishBlockRequest =>
    simp only [perform, bind_eq_some_iff, some.injEq]
      at hperform
    obtain ⟨m, hm, usage, husage, rfl⟩ := hperform
    exact hinv.countFinishBlock hi hscript hm husage _
  | replyFinishBlockRequest =>
    simp only [perform, bind_eq_some_iff, some.injEq]
      at hperform
    obtain ⟨source, -, rfl⟩ := hperform
    refine hinv.replyFinishBlock hi hscript rfl rfl ?_ ?_
    · rw [others_setHandler, others_push]
    · apply carriesNone_push hinv.inFlight
      intro hrequest
      exact Bool.noConfusion hrequest
  | embedBackgroundCounterIfNotEmpty =>
    simp only [perform, bind_eq_some_iff, some.injEq]
      at hperform
    obtain ⟨edge, hedge, rfl⟩ := hperform
    simp only [isClean, hedge, all_some] at hclean
    obtain ⟨hcounters, htotal⟩ := embed_of_isEmpty s edge h.totalBandwidthUsage hclean
    rw [hcounters, htotal]
    exact hinv.keep hi hscript (fun _ _ _ hc => hc) h.msgSeqnums rfl rfl rfl hinv.inFlight
  | updateBackgroundCounter =>
    simp only [perform, bind_eq_some_iff, some.injEq]
      at hperform
    obtain ⟨edge, -, rfl⟩ := hperform
    refine hinv.passOn hi hscript (fun _ _ _ hc => hc) rfl rfl ?_ ?_
    · obtain ⟨others, hbefore, hafter⟩ := others_setCounter s edge
      rw [others_setHandler, hafter, hbefore]
      simp only [BackgroundCounter.updateBandwidthUsage]
      abel
    · exact hinv.inFlight
  | addBackgroundEvents =>
    simp only [perform, bind_eq_some_iff, some.injEq]
      at hperform
    obtain ⟨edge, -, rfl⟩ := hperform
    refine hinv.keep hi hscript (fun _ _ _ hc => hc) h.msgSeqnums rfl rfl ?_ ?_
    · obtain ⟨others, hbefore, hafter⟩ := others_setCounter s edge
      rw [others_setHandler, hafter, hbefore]
      rfl
    · exact hinv.inFlight
  | pushLocalCacheAdmission =>
    simp only [perform, bind_eq_some_iff, some.injEq]
      at hperform
    obtain ⟨edge, -, rfl⟩ := hperform
    exact hinv.keep hi hscript (fun _ _ _ hc => hc) h.msgSeqnums rfl rfl rfl hinv.inFlight
  | reply messageType =>
    simp only [perform, bind_eq_some_iff, some.injEq]
      at hperform
    obtain ⟨source, -, rfl⟩ := hperform
    obtain ⟨hand, total, tmp, hc, -⟩ := hinv.handlers h (List.mem_of_getElem? hi)
    rw [hscript] at hc
    have hresponse : isRequest messageType = false := hc.1
    refine hinv.passOn hi hscript (fun _ _ _ hc => hc.2) rfl rfl ?_ ?_
    · rw [others_setHandler, others_push]
    · apply carriesNone_push hinv.inFlight
      intro hrequest
      rw [hresponse] at hrequest
      exact Bool.noConfusion hrequest
  | updateBandwidthUsage =>
    obtain rfl := some.inj hperform
    refine hinv.passOn hi hscript (fun _ _ _ hc => hc) rfl rfl ?_ ?_
    · show s.reported + h.totalBandwidthUsage + _ + _ = h.totalBandwidthUsage + s.others
      unfold State.others
      abel
    · exact hinv.inFlight

end Commands

/-! ### What the other steps lose -/

section Losses

variable {s t : State edgecnt} {i : Nat} {h : Handler edgecnt} {rest : Script edgecnt}
  {env : Environment}

/-- An embedding from a counter that is not empty loses the total of its handler. -/
theorem embed_loses (hconserved : Conserved s) (hi : s.handlers[i]? = some h)
    {edge : Fin edgecnt} (hedge : h.thread.node.edge? = some edge)
    (hempty : (s.counters edge).isEmpty = false)
    (hperform : perform s i h rest env .embedBackgroundCounterIfNotEmpty = some t) :
    t.held + h.totalBandwidthUsage = t.cost := by
  have hloaded : (s.counters edge).loadAndReset h.totalBandwidthUsage =
      (.empty, (s.counters edge).bandwidthUsage) := by
    unfold BackgroundCounter.loadAndReset
    rw [hempty]
    rfl
  simp only [perform, hedge, hloaded, some_bind, some.injEq] at hperform
  subst hperform
  apply held_add_lost hconserved hi 0 _ rfl
  · exact (zero_add _).symm
  · obtain ⟨others, hbefore, hafter⟩ := others_setCounter s edge
    rw [others_setHandler, hbefore, hafter]
    have hempty : BackgroundCounter.empty.bandwidthUsage = 0 := rfl
    rw [hempty, zero_add, zero_add]
    simp only [Handler.held]
    abel

/-- A response that is released uncounted is lost with what it carries. -/
theorem release_loses (hconserved : Conserved s) (hi : s.handlers[i]? = some h)
    {m : Message edgecnt} {inHand : List (Message edgecnt)} (hinHand : h.inHand = m :: inHand)
    (hperform : perform s i h rest env .releaseResponse = some t) : t.held + m.held = t.cost := by
  simp only [perform, hinHand, List.head?_cons, some_bind, some.injEq,
    List.tail_cons] at hperform
  subst hperform
  apply held_add_lost hconserved hi 0 _ rfl
  · exact (zero_add _).symm
  · rw [others_setHandler]
    simp only [Handler.held, hinHand, List.map_cons, List.sum_cons]
    abel

/-- A stale response is lost with what it carries. -/
theorem stale_loses (hconserved : Conserved s) {m : Message edgecnt}
    (hm : s.inFlight[env.pick]? = some m) {seqnum : Nat}
    (hseqnum : h.msgSeqnums.head? = some seqnum)
    (hstale : m.msgSeqnum ≠ seqnum) {messageTypes : List MessageType}
    (hperform : perform s i h rest env (.receive messageTypes) = some t) :
    t.held + m.held = t.cost := by
  simp only [perform, hm, hseqnum, some_bind, bind_eq_some_iff, require_eq_some_iff] at hperform
  obtain ⟨-, -, hperform⟩ := hperform
  rw [if_pos hstale] at hperform
  obtain rfl := some.inj hperform
  have hcost : (s.pop env.pick m).cost = m.cost + s.cost := cost_pop
  unfold Conserved at hconserved
  rw [State.held_eq, others_pop hm] at hconserved
  rw [hcost, ← hconserved, State.held_eq]
  have hhandlers : (s.pop env.pick m).handlers = s.handlers := rfl
  rw [hhandlers, Message.held]
  abel

end Losses

/-! ### Handlers that start and end -/

section Handlers

variable {s t : State edgecnt} {a : Action edgecnt}

/-- A handler that starts with what has `arrived`. -/
theorem Inv.started (hinv : Inv s) (h : Handler edgecnt) (arrived : BandwidthUsage)
    (ht : t.handlers = h :: s.handlers) (hcost : t.cost = arrived + s.cost)
    (hheld : t.others + h.held = arrived + s.others)
    (hinFlight : ∀ m ∈ t.inFlight, CarriesNone m) (hh : h.Accounts) : Inv t := by
  have hconserved := hinv.conserved
  unfold Conserved at hconserved
  rw [State.held_eq] at hconserved
  constructor
  · unfold Conserved
    rw [State.held_eq, ht, List.map_cons, List.sum_cons, ← add_assoc, hheld, hcost, ← hconserved,
      add_assoc]
  · exact hinFlight
  · intro h' hmem
    rw [ht] at hmem
    rcases List.mem_cons.1 hmem with rfl | hmem
    · exact hh
    · exact hinv.handlers h' hmem

variable {thread : Thread edgecnt} {script : Script edgecnt}

/-- A handler that starts by itself has received nothing. -/
theorem Inv.begun (hinv : Inv s) (hcloses : Closes script [] false false)
    (ht : t.handlers = Handler.start thread script none :: s.handlers) (hcost : t.cost = s.cost)
    (hothers : t.others = s.others) (hinFlight : t.inFlight = s.inFlight) : Inv t := by
  apply hinv.started (Handler.start thread script none) 0 ht
  · rw [hcost, zero_add]
  · have hheld : (Handler.start thread script none).held = 0 := by
      simp [Handler.held, Handler.start]
    rw [hheld, hothers, add_comm]
  · rw [hinFlight]
    exact hinv.inFlight
  · exact ⟨[], false, false, hcloses, .nil, fun _ => rfl, fun _ => rfl,
      fun m hmem => absurd hmem List.not_mem_nil⟩

/-- A handler that starts with a message has the message in hand. -/
theorem Inv.accepted (hinv : Inv s) {pick : Nat} {m : Message edgecnt}
    (hm : s.inFlight[pick]? = some m)
    (hcloses : Closes script [[m.messageType]] false false) :
    Inv { s.pop pick m with
      handlers := Handler.start thread script (some m) :: s.handlers } := by
  have hnone : CarriesNone m := hinv.inFlight m (List.mem_of_getElem? hm)
  have hheld : (Handler.start thread script (some m)).held = m.held := by
    simp [Handler.held, Handler.start]
  have hcost : (s.pop pick m).cost = m.cost + s.cost := cost_pop
  apply hinv.started (Handler.start thread script (some m)) m.cost rfl
  · exact hcost
  · show (s.pop pick m).others + _ = _
    rw [hheld, others_pop hm, Message.held]
    abel
  · intro m' hmem
    exact carriesNone_pop (m := m) hinv.inFlight m' hmem
  · refine ⟨_, false, false, hcloses, .cons (List.mem_singleton_self _) .nil, fun _ => rfl,
      fun _ => rfl, ?_⟩
    intro m' hmem
    rw [List.mem_singleton.1 hmem]
    exact hnone

/-- A handler that ends holds nothing. -/
theorem Inv.finished (hinv : Inv s) {i : Nat} {h : Handler edgecnt}
    (hi : s.handlers[i]? = some h) (hscript : h.script = []) :
    Inv { s with handlers := s.handlers.eraseIdx i } := by
  obtain ⟨hand, total, tmp, hc, hhand, htotal, htmp, -⟩ :=
    hinv.handlers h (List.mem_of_getElem? hi)
  rw [hscript] at hc
  obtain ⟨rfl, rfl, rfl⟩ := hc
  have hnothing : h.held = 0 := by
    unfold Handler.held
    rw [htotal rfl, htmp rfl, List.forall₂_nil_right_iff.1 hhand]
    simp
  have hconserved := hinv.conserved
  unfold Conserved at hconserved
  rw [State.held_eq, sum_eraseIdx hi, hnothing, zero_add] at hconserved
  constructor
  · unfold Conserved
    rw [State.held_eq]
    exact hconserved
  · exact hinv.inFlight
  · intro h' hmem
    exact hinv.handlers h' (List.mem_of_mem_eraseIdx hmem)

theorem Inv.next (hinv : Inv s) (hclean : Clean s a) (hnext : next s a = some t) : Inv t := by
  cases a with
  | issue client localClientWorkerIdx item edge localCacheServerWorkerIdx =>
    simp only [next, bind_eq_some_iff, some.injEq] at hnext
    obtain ⟨-, -, rfl⟩ := hnext
    exact hinv.begun (closes_issueItemToEdge item _) rfl rfl rfl rfl
  | accept edge role pick handling =>
    simp only [next, bind_eq_some_iff, require_eq_some_iff,
      some.injEq] at hnext
    obtain ⟨m, hm, -, -, -, -, -, ⟨-, htype⟩, rfl⟩ := hnext
    exact hinv.accepted hm (closes_script handling htype)
  | acceptGlobal pick =>
    simp only [next, bind_eq_some_iff, require_eq_some_iff,
      some.injEq] at hnext
    obtain ⟨m, hm, -, -, -, -, -, htype, rfl⟩ := hnext
    exact hinv.accepted hm (closes_processGlobalRequest htype)
  | startAdmission edge evictions =>
    simp only [next, bind_eq_some_iff, some.injEq] at hnext
    obtain ⟨-, -, -, -, rfl⟩ := hnext
    exact hinv.begun (closes_processLocalCacheAdmission evictions) rfl rfl rfl rfl
  | advance i env =>
    simp only [next, bind_eq_some_iff] at hnext
    obtain ⟨h, hi, hnext⟩ := hnext
    simp only [Clean, hi, all_some] at hclean
    cases hscript : h.script with
    | nil =>
      rw [hscript] at hnext
      cases hnext
    | cons command rest =>
      rw [hscript] at hnext hclean
      exact hinv.performed hi hscript hclean hnext
  | finish i =>
    simp only [next, bind_eq_some_iff, require_eq_some_iff,
      some.injEq] at hnext
    obtain ⟨h, hi, -, hscript, rfl⟩ := hnext
    exact hinv.finished hi hscript

theorem inv_initial : Inv (State.initial : State edgecnt) := by
  constructor
  · unfold Conserved
    simp [State.held, State.cost, State.initial, BackgroundCounter.empty]
  · intro m hmem
    exact absurd hmem List.not_mem_nil
  · intro h hmem
    exact absurd hmem List.not_mem_nil

end Handlers

/-! ## Runs -/

/-- In every clean run, what is held is what the messages received so far cost, class by class. -/
theorem accounting_conserves {tr : List (Action edgecnt × Unit)} {s : State edgecnt}
    (h : Runs step Clean State.initial tr s) : Conserved s := by
  have hinv : Inv s := by
    apply h.invariant inv_initial
    intro s a t _ hinv hclean hstep
    unfold step at hstep
    obtain ⟨t', ht', heq⟩ := Option.map_eq_some_iff.1 hstep
    obtain rfl := (Prod.mk.inj heq).1
    exact hinv.next hclean ht'
  exact hinv.conserved

/-! ### Concrete runs -/

/-- Nothing is calculated for a key that is not tracked. -/
def noCalculation : PlacementDecision 2 :=
  { isTrackedBySourceEdgeNode := false
    bestPlacementVictimFetchEdgeset := []
    hasBestPlacement := false
    bestPlacementEdgeset := []
    isLocalCachedAndValid := false
    validDirectory := none
    admissionRequirement := none }

/-- The value of a key without copies is fetched from the cloud. -/
def uncachedGet (round : LookupRound 2) (placement : GetrspPlacement 2) : Handling 2 :=
  .localGet
    { beacon := 0
      isLocalCachedAndValid := false
      rounds := [round]
      isCooperativeCachedAndValid := false
      evictions := none
      requirement := none
      placement := placement }

def steps (count : Nat) : List (Action 2) := List.replicate count (.advance 0 ⟨0, 100, 0⟩)

/-- A worker fetches from the cloud, with its exchange begun by the steps before, and answers its
client. -/
def fetchAndAnswer (stepsAfterFetch : Nat) : List (Action 2) :=
  [.acceptGlobal 0] ++ steps 2 ++ [.finish 0] ++ steps (3 + stepsAfterFetch) ++ [.finish 0] ++
    steps 4 ++ [.finish 0]

/-- A client of edge 1 gets a key beaconed by edge 0. -/
def getFromOtherEdge (client : Nat) : List (Action 2) :=
  [.issue client 0 .get 1 0] ++ steps 2 ++
  [.accept 1 (.cacheServerWorker 0) 0
    (uncachedGet (.beaconDirectory .normal none none) .noPlacement)] ++ steps 3 ++
  [.accept 0 .beaconServer 0 (.directoryLookup noCalculation false)] ++ steps 2

theorem accounting_conserves_getFromOtherEdge : ∃ s : State 2, s.received.length = 6 ∧
    s.handlers.length = 0 ∧ s.reported .crossEdgeControlContentDiscoveryMsgcnt = 2 ∧
      Conserved s := by
  have hexec : (exec step Clean State.initial
      (getFromOtherEdge 0 ++ steps 1 ++ [.finish 0] ++ steps 5 ++ fetchAndAnswer 1)).any
      (fun s => s.received.length == 6 && s.handlers.length == 0 &&
        s.reported .crossEdgeControlContentDiscoveryMsgcnt == 2) = true := by
    decide +kernel
  obtain ⟨tr, s, hrun, -, hp⟩ := exists_runs_of_any hexec
  simp only [Bool.and_eq_true, beq_iff_eq] at hp
  exact ⟨s, hp.1.1, hp.1.2, hp.2, accounting_conserves hrun⟩

/-- The beacon itself places the object that it has fetched. -/
def placedHere : PlacementDecision 2 :=
  { noCalculation with
    isTrackedBySourceEdgeNode := true
    hasBestPlacement := true
    bestPlacementEdgeset := [0] }

/-- A client of edge 0 gets a key beaconed by it, and edge 0 admits the object. -/
def getAndPlace : List (Action 2) :=
  [.issue 0 0 .get 0 0] ++ steps 2 ++
  [.accept 0 (.cacheServerWorker 0) 0
    (uncachedGet (.localDirectory noCalculation false none) (.currentIsBeacon placedHere))] ++
  steps 3 ++ fetchAndAnswer 2 ++ [.startAdmission 0 []] ++ steps 4 ++ [.finish 0]

/-- After a placement of its own, a beacon loses the cost of the next lookup request. -/
theorem lookup_cost_overwritten : ¬ ∀ (edgecnt : Nat) (tr : List (Action edgecnt × Unit))
    (s : State edgecnt), Runs step anyAction State.initial tr s → Conserved s := by
  have hexec : (exec step anyAction State.initial (getAndPlace ++ getFromOtherEdge 1)).any
      (fun s => s.held .crossEdgeControlContentDiscoveryMsgcnt == 0 &&
        s.cost .crossEdgeControlContentDiscoveryMsgcnt == 1) = true := by
    decide +kernel
  obtain ⟨tr, s, hrun, -, hp⟩ := exists_runs_of_any hexec
  rw [Bool.and_eq_true, beq_iff_eq, beq_iff_eq] at hp
  intro hconserved
  have hmember := congrFun (hconserved 2 tr s hrun) .crossEdgeControlContentDiscoveryMsgcnt
  rw [hp.1, hp.2] at hmember
  exact absurd hmember (by decide)

end Covered.Edge.BandwidthConservation
