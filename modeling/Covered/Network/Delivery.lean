import Covered.Lib.Execution
import Covered.Network.Reassembly

/-!
# Delivery of messages over a lossy network

Clients send messages to one server. Every packet is delivered at most once, at any time and in any
order, or is lost. A client numbers its messages consecutively, and all messages of one source come
from one client, so the pair of source and number identifies a message.

The state has, beside the counters of the clients, the packets in flight and the entries of the
server, the history: the messages that were sent, the fragments that arrived and what the server
returned. `delivery_exact` is that the server returns only what was sent, each message at most once,
and returns a message when its fragments have arrived and none of a later message of several
fragments of the same source has.
-/

set_option autoImplicit false

namespace Covered.Network

open Common Lib.Checked Lib.Execution Function List

/-- Which fragment of which message a packet has. -/
structure FragmentId where
  sourceAddr : NetworkAddr
  msgSeqnum : Nat
  fragmentIdx : Nat
deriving DecidableEq

namespace Message

/-- Source and number of a message. -/
def id (m : Message) : NetworkAddr × Nat := (m.sourceAddr, m.msgSeqnum)

def fragmentId (m : Message) (fragmentIdx : Nat) : FragmentId :=
  ⟨m.sourceAddr, m.msgSeqnum, fragmentIdx⟩

theorem fragmentId_inj {m m' : Message} {i j : Nat} (h : m.fragmentId i = m'.fragmentId j) :
    m.id = m'.id ∧ i = j := by
  simp only [fragmentId, FragmentId.mk.injEq] at h
  exact ⟨Prod.ext h.1 h.2.1, h.2.2⟩

end Message

/-- Clients by number, the network, the server, and the history. -/
structure UdpNetwork where
  msgSeqnum : Nat → Nat
  flight : List (FragmentId × List UInt8)
  stats : MsgFragStats
  sent : List Message
  arrived : List FragmentId
  returned : List ((NetworkAddr × Nat) × List UInt8)

namespace UdpNetwork

def initial : UdpNetwork where
  msgSeqnum := fun _ => 0
  flight := []
  stats := fun _ => none
  sent := []
  arrived := []
  returned := []

inductive Action
  | send (sourceAddr : NetworkAddr) (payload : List UInt8)
  | deliver (i : Nat)
  | lose (i : Nat)

/-- The packet payload that a socket receives, cut to the size of its buffer. -/
def udpRecvfrom (bytes : List UInt8) : Option DynamicArray := do
  let pktPayload ← DynamicArray.ofCapacity udpMaxPktPayload
  pktPayload.deserialize 0 (bytes.take udpMaxPktPayload)

/-- The messages that can be sent: a number does not wrap around. -/
def Sendable (msgSeqnum : Nat) (sourceAddr : NetworkAddr) (payload : List UInt8) : Prop :=
  sourceAddr.Sends ∧ msgSeqnum < 2 ^ 32 ∧ payload ≠ [] ∧ payload.length < 2 ^ 32

instance (sourceAddr : NetworkAddr) : Decidable sourceAddr.Sends :=
  decidable_of_iff
    ((inetPton sourceAddr.ipstr).isSome = true ∧ udpMinPort < sourceAddr.port.toNat)
    ⟨fun h => ⟨h.1, h.2⟩, fun h => ⟨h.ipstr, h.port⟩⟩

instance (msgSeqnum : Nat) (sourceAddr : NetworkAddr) (payload : List UInt8) :
    Decidable (Sendable msgSeqnum sourceAddr payload) :=
  inferInstanceAs (Decidable (_ ∧ _))

/-- The packets of a message, each with the fragment that it has. -/
def tagged (m : Message) (pkts : List DynamicArray) : List (FragmentId × List UInt8) :=
  pkts.mapIdx fun i pkt => (m.fragmentId i, pkt.bytes)

/-- One step; the output is what the server returns. -/
def step (clientOf : NetworkAddr → Nat) (s : UdpNetwork) :
    Action → Option (UdpNetwork × Option (List UInt8))
  | .send sourceAddr payload =>
      let msgSeqnum := s.msgSeqnum (clientOf sourceAddr)
      if h : Sendable msgSeqnum sourceAddr payload then do
        let m : Message := ⟨sourceAddr, msgSeqnum, payload, h.1, h.2.1, h.2.2.1, h.2.2.2⟩
        let pkts ← Network.send m.messagePayload msgSeqnum sourceAddr
        return ({ s with
          msgSeqnum := Function.update s.msgSeqnum (clientOf sourceAddr) (msgSeqnum + 1)
          flight := s.flight ++ tagged m pkts
          sent := s.sent ++ [m] }, none)
      else none
  | .deliver i => do
      let (f, bytes) ← s.flight[i]?
      let pktPayload ← udpRecvfrom bytes
      let (stats, received) ← recvPacket s.stats pktPayload
      let delivered := { s with
        flight := s.flight.eraseIdx i
        stats := stats
        arrived := s.arrived ++ [f] }
      match received with
      | .message payload =>
          return ({ delivered with
            returned := s.returned ++ [((f.sourceAddr, f.msgSeqnum), payload)] }, some payload)
      | _ => return (delivered, none)
  | .lose i => do
      require (i < s.flight.length)
      return ({ s with flight := s.flight.eraseIdx i }, none)

/-- No fragment of a later message of several fragments of the same source has arrived. -/
def NoneLater (s : UdpNetwork) (m : Message) : Prop :=
  ∀ m' ∈ s.sent, m'.sourceAddr = m.sourceAddr → m.msgSeqnum < m'.msgSeqnum → 1 < m'.fragmentCnt →
    ∀ j, m'.fragmentId j ∉ s.arrived

/-- The message was returned. -/
def Returned (s : UdpNetwork) (m : Message) : Prop := m.id ∈ s.returned.map Prod.fst

/-- All fragments of the message that have arrived are tracked. -/
def KeepsAll (s : UdpNetwork) (m : Message) : Prop :=
  ∀ j, m.fragmentId j ∈ s.arrived → ∃ entry, s.stats m.sourceAddr = some entry ∧
    entry.msgSeqnum = m.msgSeqnum ∧ entry.Tracks j

/-- The invariant. -/
structure Inv (clientOf : NetworkAddr → Nat) (s : UdpNetwork) : Prop where
  seqnum : ∀ m ∈ s.sent, m.msgSeqnum < s.msgSeqnum (clientOf m.sourceAddr)
  sent : (s.sent.map Message.id).Nodup
  flight : ∀ p ∈ s.flight, ∃ m ∈ s.sent, ∃ j < m.fragmentCnt, p = (m.fragmentId j, m.packet j)
  distinct : (s.flight.map Prod.fst ++ s.arrived).Nodup
  arrived : ∀ f ∈ s.arrived, ∃ m ∈ s.sent, ∃ j < m.fragmentCnt, f = m.fragmentId j
  entries : ∀ addr entry, s.stats addr = some entry → ∃ m ∈ s.sent, m.sourceAddr = addr ∧
    Tracked entry m ∧ ∀ j, entry.Tracks j → m.fragmentId j ∈ s.arrived
  returned : ∀ r ∈ s.returned, ∃ m ∈ s.sent, r = (m.id, m.payload) ∧
    ∀ j < m.fragmentCnt, m.fragmentId j ∈ s.arrived
  once : (s.returned.map Prod.fst).Nodup
  single : ∀ m ∈ s.sent, m.fragmentCnt = 1 → m.fragmentId 0 ∈ s.arrived → s.Returned m
  several : ∀ m ∈ s.sent, 1 < m.fragmentCnt → s.NoneLater m → s.Returned m ∨ s.KeepsAll m

theorem inv_initial (clientOf : NetworkAddr → Nat) : Inv clientOf initial where
  seqnum := fun _ h => absurd h not_mem_nil
  sent := nodup_nil
  flight := fun _ h => absurd h not_mem_nil
  distinct := nodup_nil
  arrived := fun _ h => absurd h not_mem_nil
  entries := fun _ _ h => nomatch h
  returned := fun _ h => absurd h not_mem_nil
  once := nodup_nil
  single := fun _ h => absurd h not_mem_nil
  several := fun _ h => absurd h not_mem_nil

section Invariant

variable {clientOf : NetworkAddr → Nat} {s : UdpNetwork}

/-- Source and number identify a message. -/
theorem Inv.eq_of_id (h : Inv clientOf s) {m m' : Message} (hm : m ∈ s.sent) (hm' : m' ∈ s.sent)
    (hid : m.id = m'.id) : m = m' :=
  inj_on_of_nodup_map h.sent hm hm' hid

/-- The packets of a message, tagged. -/
theorem tagged_eq {m : Message} {pkts : List DynamicArray}
    (h : pkts.map DynamicArray.bytes = (range m.fragmentCnt).map m.packet) :
    tagged m pkts = (range m.fragmentCnt).map fun j => (m.fragmentId j, m.packet j) := by
  have hlength : pkts.length = m.fragmentCnt := by
    have := congrArg length h
    rwa [length_map, length_map, length_range] at this
  apply ext_getElem
  · rw [tagged, length_mapIdx, length_map, length_range, hlength]
  · intro j hj hj'
    rw [length_map, length_range] at hj'
    have hbytes : (pkts.map DynamicArray.bytes)[j]? = some (m.packet j) := by
      rw [h, getElem?_map, getElem?_range hj', Option.map_some]
    rw [getElem?_map, getElem?_eq_getElem (hlength ▸ hj'), Option.map_some,
      Option.some.injEq] at hbytes
    rw [getElem_map, getElem_range]
    simp only [tagged, getElem_mapIdx, hbytes]

variable {sourceAddr : NetworkAddr} {payload : List UInt8}

/-- What sending a message does. -/
theorem step_send_eq (clientOf : NetworkAddr → Nat) (s : UdpNetwork)
    (h : Sendable (s.msgSeqnum (clientOf sourceAddr)) sourceAddr payload) :
    ∃ m : Message, m.sourceAddr = sourceAddr ∧ m.payload = payload ∧
      m.msgSeqnum = s.msgSeqnum (clientOf sourceAddr) ∧
      step clientOf s (.send sourceAddr payload) = some ({ s with
        msgSeqnum := update s.msgSeqnum (clientOf sourceAddr) (m.msgSeqnum + 1)
        flight := s.flight ++
          (range m.fragmentCnt).map fun j => (m.fragmentId j, m.packet j)
        sent := s.sent ++ [m] }, none) := by
  let m : Message := ⟨sourceAddr, _, payload, h.1, h.2.1, h.2.2.1, h.2.2.2⟩
  obtain ⟨pkts, hpkts, hbytes⟩ := m.send_eq
  refine ⟨m, rfl, rfl, rfl, ?_⟩
  simp only [step, dif_pos h]
  rw [show Network.send m.messagePayload m.msgSeqnum m.sourceAddr = some pkts from hpkts]
  simp only [some_bind, Option.pure_def]
  rw [show tagged m pkts = _ from tagged_eq hbytes]

variable {s' : UdpNetwork} {out : Option (List UInt8)}

theorem sendable_of_step (h : step clientOf s (.send sourceAddr payload) = some (s', out)) :
    Sendable (s.msgSeqnum (clientOf sourceAddr)) sourceAddr payload := by
  simp only [step] at h
  split at h
  · assumption
  · cases h

theorem inv_send (h : Inv clientOf s)
    (hstep : step clientOf s (.send sourceAddr payload) = some (s', out)) : Inv clientOf s' := by
  obtain ⟨m, rfl, -, hseqnum, heq⟩ := step_send_eq clientOf _ (sendable_of_step hstep)
  rw [heq, Option.some.injEq, Prod.mk.injEq] at hstep
  obtain ⟨rfl, -⟩ := hstep
  -- the number of the message is new for its source
  have hnew : ∀ m' ∈ s.sent, m'.id ≠ m.id := by
    intro m' hm' heq
    have hlt := h.seqnum m' hm'
    rw [show m'.sourceAddr = m.sourceAddr from congrArg Prod.fst heq, ← hseqnum] at hlt
    exact absurd (congrArg Prod.snd heq) (Nat.ne_of_lt hlt)
  have hold : ∀ {f : FragmentId}, (∃ m' ∈ s.sent, ∃ j < m'.fragmentCnt, f = m'.fragmentId j) →
      ∀ j, f ≠ m.fragmentId j := by
    rintro f ⟨m', hm', i, -, rfl⟩ j heq
    exact hnew m' hm' (Message.fragmentId_inj heq).1
  have hmem : ∀ {m' : Message}, m' ∈ s.sent → m' ∈ s.sent ++ [m] :=
    fun hm' => mem_append_left _ hm'
  constructor
  · intro m' hm'
    rcases mem_append.1 hm' with hm' | hm'
    · have hlt := h.seqnum m' hm'
      dsimp only
      by_cases hclient : clientOf m'.sourceAddr = clientOf m.sourceAddr
      · rw [hclient, update_self]
        rw [hclient, ← hseqnum] at hlt
        omega
      · rw [update_of_ne hclient]
        exact hlt
    · rw [mem_singleton] at hm'
      subst hm'
      dsimp only
      rw [update_self]
      exact Nat.lt_succ_self _
  · dsimp only
    rw [map_append, nodup_append]
    refine ⟨h.sent, nodup_singleton _, ?_⟩
    rintro a ha b hb rfl
    obtain ⟨m', hm', rfl⟩ := mem_map.1 ha
    exact hnew m' hm' (mem_singleton.1 hb)
  · intro p hp
    rcases mem_append.1 hp with hp | hp
    · obtain ⟨m', hm', hrest⟩ := h.flight p hp
      exact ⟨m', hmem hm', hrest⟩
    · obtain ⟨j, hj, rfl⟩ := mem_map.1 hp
      exact ⟨m, mem_append_right _ (mem_singleton_self m), j, mem_range.1 hj, rfl⟩
  · -- the new packets have fragments of a new message
    have hfresh : ((range m.fragmentCnt).map m.fragmentId).Nodup := by
      refine nodup_range.map_on fun i _ j _ heq => ?_
      exact (Message.fragmentId_inj heq).2
    have hflight : ∀ f ∈ s.flight.map Prod.fst ++ s.arrived,
        f ∉ (range m.fragmentCnt).map m.fragmentId := by
      intro f hf hmem
      obtain ⟨j, -, rfl⟩ := mem_map.1 hmem
      rcases mem_append.1 hf with hf | hf
      · obtain ⟨p, hp, hfirst⟩ := mem_map.1 hf
        obtain ⟨m', hm', i, hi, rfl⟩ := h.flight p hp
        exact hold ⟨m', hm', i, hi, hfirst.symm⟩ j rfl
      · exact hold (h.arrived _ hf) j rfl
    have hall : (s.flight.map Prod.fst ++ s.arrived ++
        (range m.fragmentCnt).map m.fragmentId).Nodup :=
      nodup_append.2 ⟨h.distinct, hfresh, fun f hf g hg heq => hflight f hf (heq ▸ hg)⟩
    dsimp only
    rw [map_append, map_map]
    refine (List.Perm.nodup_iff ?_).1 hall
    rw [append_assoc, append_assoc]
    exact List.Perm.append_left _ perm_append_comm
  · intro f hf
    obtain ⟨m', hm', hrest⟩ := h.arrived f hf
    exact ⟨m', hmem hm', hrest⟩
  · intro addr entry hentry
    obtain ⟨m', hm', hrest⟩ := h.entries addr entry hentry
    exact ⟨m', hmem hm', hrest⟩
  · intro r hr
    obtain ⟨m', hm', hrest⟩ := h.returned r hr
    exact ⟨m', hmem hm', hrest⟩
  · exact h.once
  · intro m' hm' hone harrived
    rcases mem_append.1 hm' with hm' | hm'
    · exact h.single m' hm' hone harrived
    · rw [mem_singleton] at hm'
      subst hm'
      exact absurd rfl (hold (h.arrived _ harrived) 0)
  · intro m' hm' hseveral hlater
    rcases mem_append.1 hm' with hm' | hm'
    · exact h.several m' hm' hseveral fun m'' hm'' => hlater m'' (hmem hm'')
    · rw [mem_singleton] at hm'
      subst hm'
      exact .inr fun j harrived => absurd rfl (hold (h.arrived _ harrived) j)

theorem inv_lose (h : Inv clientOf s) {i : Nat}
    (hstep : step clientOf s (.lose i) = some (s', out)) :
    Inv clientOf s' := by
  simp only [step, bind_eq_some_iff, pure_eq_some_iff, Prod.mk.injEq] at hstep
  obtain ⟨-, -, rfl, -⟩ := hstep
  have hsub : (s.flight.eraseIdx i).Sublist s.flight := eraseIdx_sublist ..
  exact { h with
    flight := fun p hp => h.flight p (hsub.mem hp)
    distinct := h.distinct.sublist ((hsub.map Prod.fst).append_right s.arrived) }

/-- A socket receives the whole packet. -/
theorem udpRecvfrom_packet {m : Message} {j : Nat} (hj : j < m.fragmentCnt) :
    ∃ pkt, udpRecvfrom (m.packet j) = some pkt ∧ pkt.bytes = m.packet j := by
  obtain ⟨-, hmax, -⟩ := Message.fragment_spec hj
  have hlength : (m.packet j).length ≤ udpMaxPktPayload := by
    have hmaximum : udpFraghdrSize + udpMaxFragPayload = udpMaxPktPayload := by decide
    rw [Message.length_packet]
    omega
  have hlt : udpMaxPktPayload < 2 ^ 32 := by decide
  have hroom : 0 + (m.packet j).length ≤
      (⟨[], udpMaxPktPayload, Nat.zero_le _, hlt⟩ : DynamicArray).capacity := by
    rw [Nat.zero_add]
    exact hlength
  obtain ⟨pkt, hpkt, hbytes, -⟩ := DynamicArray.deserialize_eq (Nat.zero_le _) hroom
  refine ⟨pkt, ?_, ?_⟩
  · simp only [udpRecvfrom, DynamicArray.ofCapacity_eq hlt, some_bind,
      take_of_length_le hlength, hpkt]
  · rw [hbytes, take_nil, drop_nil, nil_append, append_nil]

/-- The state after a packet was delivered. -/
def delivered (s : UdpNetwork) (i : Nat) (f : FragmentId) (stats : MsgFragStats) :
    Received → UdpNetwork
  | .message payload => { s with
      flight := s.flight.eraseIdx i
      stats := stats
      arrived := s.arrived ++ [f]
      returned := s.returned ++ [((f.sourceAddr, f.msgSeqnum), payload)] }
  | _ => { s with
      flight := s.flight.eraseIdx i
      stats := stats
      arrived := s.arrived ++ [f] }

/-- A packet in flight has a fragment of a message that was sent, and delivering it has one of the
effects of such a packet. -/
theorem step_deliver (h : Inv clientOf s) {i : Nat} (hi : i < s.flight.length) :
    ∃ m ∈ s.sent, ∃ j < m.fragmentCnt, ∃ stats received out,
      s.flight[i]? = some (m.fragmentId j, m.packet j) ∧ m.fragmentId j ∉ s.arrived ∧
      Effect s.stats m j stats received ∧
      step clientOf s (.deliver i) = some (s.delivered i (m.fragmentId j) stats received, out) := by
  have hget : s.flight[i]? = some s.flight[i] := getElem?_eq_getElem hi
  obtain ⟨m, hm, j, hj, heq⟩ := h.flight s.flight[i] (getElem_mem hi)
  rw [heq] at hget
  have hnew : m.fragmentId j ∉ s.arrived := by
    intro hmem
    have hfirst : m.fragmentId j ∈ s.flight.map Prod.fst :=
      mem_map.2 ⟨_, mem_of_getElem? hget, rfl⟩
    exact (nodup_append.1 h.distinct).2.2 _ hfirst _ hmem rfl
  obtain ⟨pkt, hpkt, hbytes⟩ := udpRecvfrom_packet hj
  obtain ⟨stats, received, hrecv, heffect⟩ := recvPacket_effect s.stats hj hbytes
    (by
      intro entry hentry
      obtain ⟨m', hm', haddr, htracked, -⟩ := h.entries _ entry hentry
      exact ⟨m', htracked, fun hseq => h.eq_of_id hm' hm (Prod.ext haddr hseq)⟩)
    (by
      intro entry hentry hseq htracks
      obtain ⟨m', hm', haddr, htracked, harrived⟩ := h.entries _ entry hentry
      have hmsg : m' = m :=
        h.eq_of_id hm' hm (Prod.ext haddr (htracked.msgSeqnum.symm.trans hseq))
      subst hmsg
      exact hnew (harrived j htracks))
  have hstep : ∃ out, step clientOf s (.deliver i) =
      some (s.delivered i (m.fragmentId j) stats received, out) := by
    cases received with
    | message payload =>
      exact ⟨some payload, by
        simp only [step, hget, hpkt, hrecv, some_bind, Option.pure_def, delivered]⟩
    | pending =>
      exact ⟨none, by
        simp only [step, hget, hpkt, hrecv, some_bind, Option.pure_def, delivered]⟩
    | timeout =>
      exact ⟨none, by
        simp only [step, hget, hpkt, hrecv, some_bind, Option.pure_def, delivered]⟩
  obtain ⟨out, hout⟩ := hstep
  exact ⟨m, hm, j, hj, stats, received, out, hget, hnew, heffect, hout⟩

section Delivered

variable {i j : Nat} {f : FragmentId} {m : Message} {stats : MsgFragStats} {received : Received}

@[simp] theorem sent_delivered : (s.delivered i f stats received).sent = s.sent := by
  cases received <;> rfl

@[simp] theorem msgSeqnum_delivered :
    (s.delivered i f stats received).msgSeqnum = s.msgSeqnum := by
  cases received <;> rfl

@[simp] theorem flight_delivered :
    (s.delivered i f stats received).flight = s.flight.eraseIdx i := by
  cases received <;> rfl

@[simp] theorem stats_delivered : (s.delivered i f stats received).stats = stats := by
  cases received <;> rfl

@[simp] theorem arrived_delivered :
    (s.delivered i f stats received).arrived = s.arrived ++ [f] := by
  cases received <;> rfl

variable {m' : Message}

theorem returned_delivered (h : s.Returned m') :
    (s.delivered i f stats received).Returned m' := by
  cases received with
  | message payload =>
    rw [Returned, delivered, map_append]
    exact mem_append_left _ h
  | pending => exact h
  | timeout => exact h

theorem noneLater_of_delivered (h : (s.delivered i f stats received).NoneLater m') :
    s.NoneLater m' := by
  intro m'' hm'' hsource hseq hseveral k hk
  refine h m'' (by simpa using hm'') hsource hseq hseveral k ?_
  rw [arrived_delivered]
  exact mem_append_left _ hk

section Arrived

variable (h : Inv clientOf s)
include h

/-- The tracked fragments of the message itself have arrived. -/
theorem Inv.arrived_of_tracks (hm : m ∈ s.sent) {entry : MsgFragStatsEntry}
    (hentry : s.stats m.sourceAddr = some entry) (hseq : entry.msgSeqnum = m.msgSeqnum) {k : Nat}
    (hk : entry.Tracks k) : m.fragmentId k ∈ s.arrived := by
  obtain ⟨m', hm', haddr, htracked, harrived⟩ := h.entries _ entry hentry
  have hmsg : m' = m := h.eq_of_id hm' hm (Prod.ext haddr (htracked.msgSeqnum.symm.trans hseq))
  subst hmsg
  exact harrived k hk

/-- A message of which a fragment is still to arrive was not returned. -/
theorem Inv.not_returned (hm : m ∈ s.sent) (hj : j < m.fragmentCnt)
    (hnew : m.fragmentId j ∉ s.arrived) : ¬ s.Returned m := by
  intro hreturned
  obtain ⟨r, hr, hid⟩ := mem_map.1 hreturned
  obtain ⟨m', hm', rfl, harrived⟩ := h.returned r hr
  have hmsg : m' = m := h.eq_of_id hm' hm hid
  subst hmsg
  exact hnew (harrived j hj)

theorem distinct_delivered (hget : s.flight[i]? = some (m.fragmentId j, m.packet j)) :
    ((s.flight.eraseIdx i).map Prod.fst ++ (s.arrived ++ [m.fragmentId j])).Nodup := by
  obtain ⟨hi, hi'⟩ := List.getElem?_eq_some_iff.1 hget
  have hperm := (getElem_cons_eraseIdx_perm hi).map Prod.fst
  rw [hi', map_cons] at hperm
  refine (List.Perm.nodup_iff ?_).1 h.distinct
  refine (hperm.symm.append_right s.arrived).trans ?_
  rw [← append_assoc]
  exact (perm_append_singleton _ _).symm

theorem entries_delivered (hm : m ∈ s.sent) (heffect : Effect s.stats m j stats received)
    (addr : NetworkAddr) (entry : MsgFragStatsEntry)
    (hentry : stats addr = some entry) : ∃ m' ∈ s.sent, m'.sourceAddr = addr ∧
      Tracked entry m' ∧ ∀ k, entry.Tracks k → m'.fragmentId k ∈ s.arrived ++ [m.fragmentId j] := by
  have hbefore : s.stats addr = some entry → ∃ m' ∈ s.sent, m'.sourceAddr = addr ∧
      Tracked entry m' ∧
      ∀ k, entry.Tracks k → m'.fragmentId k ∈ s.arrived ++ [m.fragmentId j] := by
    intro hsame
    obtain ⟨m', hm', haddr, htracked, harrived⟩ := h.entries addr entry hsame
    exact ⟨m', hm', haddr, htracked, fun k hk => mem_append_left _ (harrived k hk)⟩
  cases heffect with
  | single => exact hbefore hentry
  | last last =>
    rw [MsgFragStats.removeEntry] at hentry
    by_cases haddr : addr = m.sourceAddr
    · subst haddr
      rw [update_self] at hentry
      cases hentry
    · rw [update_of_ne haddr] at hentry
      exact hbefore hentry
  | older => exact hbefore hentry
  | tracked after htracked htracks hle =>
    by_cases haddr : addr = m.sourceAddr
    · subst haddr
      rw [update_self, Option.some.injEq] at hentry
      subst hentry
      refine ⟨m, hm, rfl, htracked, fun k hk => ?_⟩
      rcases (htracks k).1 hk with rfl | ⟨before, hstats, hseq, hk⟩
      · exact mem_append_right _ (mem_singleton_self _)
      · exact mem_append_left _ (h.arrived_of_tracks hm hstats hseq hk)
    · rw [update_of_ne haddr] at hentry
      exact hbefore hentry

/-- A message is returned when all of its fragments have arrived. -/
theorem message_of_effect (hm : m ∈ s.sent) (hj : j < m.fragmentCnt) {payload : List UInt8}
    (heffect : Effect s.stats m j stats (.message payload)) :
    payload = m.payload ∧
      ∀ k < m.fragmentCnt, m.fragmentId k ∈ s.arrived ++ [m.fragmentId j] := by
  have hhere : m.fragmentId j ∈ s.arrived ++ [m.fragmentId j] :=
    mem_append_right _ (mem_singleton_self _)
  cases heffect with
  | single hone =>
    refine ⟨rfl, fun k hk => ?_⟩
    have hkj : k = j := by omega
    rw [hkj]
    exact hhere
  | last entry hseveral hentry hseq hall =>
    refine ⟨rfl, fun k hk => ?_⟩
    rcases hall k hk with rfl | htracks
    · exact hhere
    · exact mem_append_left _ (h.arrived_of_tracks hm hentry hseq htracks)

theorem single_delivered (heffect : Effect s.stats m j stats received) (hm : m ∈ s.sent)
    (hm' : m' ∈ s.sent) (hone : m'.fragmentCnt = 1)
    (harrived : m'.fragmentId 0 ∈ s.arrived ++ [m.fragmentId j]) :
    (s.delivered i (m.fragmentId j) stats received).Returned m' := by
  rcases mem_append.1 harrived with hbefore | hhere
  · exact returned_delivered (h.single m' hm' hone hbefore)
  · obtain ⟨hid, rfl⟩ := Message.fragmentId_inj (mem_singleton.1 hhere)
    have hmsg : m' = m := h.eq_of_id hm' hm hid
    subst hmsg
    cases heffect with
    | single =>
      rw [Returned, delivered, map_append]
      exact mem_append_right _ (mem_singleton_self _)
    | last _ hseveral => omega
    | older _ hseveral => omega
    | tracked _ htracked =>
      have hseveral := htracked.several
      omega

/-- The fragments of the message whose fragment is delivered. -/
theorem several_delivered_self (heffect : Effect s.stats m j stats received) (hm : m ∈ s.sent)
    (hj : j < m.fragmentCnt) (hnew : m.fragmentId j ∉ s.arrived) (hseveral : 1 < m.fragmentCnt)
    (hlater : s.NoneLater m) :
    (s.delivered i (m.fragmentId j) stats received).Returned m ∨
      (s.delivered i (m.fragmentId j) stats received).KeepsAll m := by
  cases heffect with
  | single hone => omega
  | last =>
    refine .inl ?_
    rw [Returned, delivered, map_append]
    exact mem_append_right _ (mem_singleton_self _)
  | older entry _ hentry hlt =>
    -- a fragment of the tracked message has arrived, and that message is later
    exfalso
    obtain ⟨m', hm', haddr, htracked, harrived⟩ := h.entries _ entry hentry
    obtain ⟨fragment, rest, hcons⟩ := exists_cons_of_ne_nil htracked.nonempty
    have htracks : entry.Tracks fragment.1 := by
      rw [MsgFragStatsEntry.Tracks, hcons]
      exact mem_map_of_mem mem_cons_self
    rw [htracked.msgSeqnum] at hlt
    exact hlater m' hm' haddr hlt htracked.several _ (harrived _ htracks)
  | tracked after htracked htracks =>
    have hkeeps := (h.several m hm hseveral hlater).resolve_left (h.not_returned hm hj hnew)
    refine .inr fun k hk => ⟨after, ?_, htracked.msgSeqnum, ?_⟩
    · rw [stats_delivered, update_self]
    · rw [arrived_delivered] at hk
      rcases mem_append.1 hk with hk | hk
      · exact (htracks k).2 (.inr (hkeeps k hk))
      · exact (htracks k).2 (.inl (Message.fragmentId_inj (mem_singleton.1 hk)).2)

/-- The fragments of the other messages. -/
theorem several_delivered_other (heffect : Effect s.stats m j stats received) (hm : m ∈ s.sent)
    (hm' : m' ∈ s.sent) (hne : m' ≠ m) (hseveral : 1 < m'.fragmentCnt)
    (hlater : (s.delivered i (m.fragmentId j) stats received).NoneLater m') :
    (s.delivered i (m.fragmentId j) stats received).Returned m' ∨
      (s.delivered i (m.fragmentId j) stats received).KeepsAll m' := by
  refine (h.several m' hm' hseveral (noneLater_of_delivered hlater)).imp returned_delivered
    fun hkeeps k hk => ?_
  have hidne : m'.id ≠ m.id := fun hid => hne (h.eq_of_id hm' hm hid)
  have hbefore : m'.fragmentId k ∈ s.arrived := by
    rw [arrived_delivered] at hk
    refine (mem_append.1 hk).resolve_right fun hhere => ?_
    exact hidne (Message.fragmentId_inj (mem_singleton.1 hhere)).1
  obtain ⟨entry, hentry, hseq, htracks⟩ := hkeeps k hbefore
  rw [stats_delivered]
  by_cases hsource : m'.sourceAddr = m.sourceAddr
  · -- of two messages of one source, the one that is delivered is not the later one
    have hnotLater : 1 < m.fragmentCnt → m.msgSeqnum < m'.msgSeqnum := by
      intro hcnt
      rcases Nat.lt_trichotomy m.msgSeqnum m'.msgSeqnum with hlt | heq | hgt
      · exact hlt
      · exact absurd (Prod.ext hsource heq.symm) hidne
      · refine absurd ?_ (hlater m (by simpa using hm) hsource.symm hgt hcnt j)
        rw [arrived_delivered]
        exact mem_append_right _ (mem_singleton_self _)
    cases heffect with
    | single => exact ⟨entry, hentry, hseq, htracks⟩
    | last tracking hcnt htracking hnumber =>
      have hlt := hnotLater hcnt
      rw [hsource, htracking, Option.some.injEq] at hentry
      rw [hentry, hseq] at hnumber
      omega
    | older => exact ⟨entry, hentry, hseq, htracks⟩
    | tracked after htracked _ hle =>
      have hlt := hnotLater htracked.several
      rw [hsource] at hentry
      have hbound := hle entry hentry
      rw [hseq] at hbound
      omega
  · have hsame : stats m'.sourceAddr = s.stats m'.sourceAddr := by
      cases heffect with
      | single => rfl
      | last => exact update_of_ne hsource _ _
      | older => rfl
      | tracked => exact update_of_ne hsource _ _
    exact ⟨entry, hsame.trans hentry, hseq, htracks⟩

theorem inv_delivered (hm : m ∈ s.sent) (hj : j < m.fragmentCnt)
    (hget : s.flight[i]? = some (m.fragmentId j, m.packet j)) (hnew : m.fragmentId j ∉ s.arrived)
    (heffect : Effect s.stats m j stats received) :
    Inv clientOf (s.delivered i (m.fragmentId j) stats received) := by
  constructor
  · simpa using h.seqnum
  · simpa using h.sent
  · intro p hp
    rw [flight_delivered] at hp
    rw [sent_delivered]
    exact h.flight p ((eraseIdx_sublist ..).mem hp)
  · rw [flight_delivered, arrived_delivered]
    exact distinct_delivered h hget
  · intro f hf
    rw [arrived_delivered] at hf
    rw [sent_delivered]
    rcases mem_append.1 hf with hf | hf
    · exact h.arrived f hf
    · exact ⟨m, hm, j, hj, mem_singleton.1 hf⟩
  · intro addr entry hentry
    rw [stats_delivered] at hentry
    rw [sent_delivered, arrived_delivered]
    exact entries_delivered h hm heffect addr entry hentry
  · have hold : ∀ r ∈ s.returned, ∃ m' ∈ s.sent, r = (m'.id, m'.payload) ∧
        ∀ k < m'.fragmentCnt, m'.fragmentId k ∈ s.arrived ++ [m.fragmentId j] := by
      intro r hr
      obtain ⟨m', hm', heq, harrived⟩ := h.returned r hr
      exact ⟨m', hm', heq, fun k hk => mem_append_left _ (harrived k hk)⟩
    rw [sent_delivered, arrived_delivered]
    cases received with
    | message payload =>
      obtain ⟨rfl, hall⟩ := message_of_effect h hm hj heffect
      intro r hr
      rcases mem_append.1 hr with hr | hr
      · exact hold r hr
      · exact ⟨m, hm, mem_singleton.1 hr, hall⟩
    | pending => exact hold
    | timeout => exact hold
  · cases received with
    | message payload =>
      rw [delivered, map_append]
      refine nodup_append.2 ⟨h.once, nodup_singleton _, ?_⟩
      rintro a ha b hb rfl
      rw [map_singleton, mem_singleton] at hb
      subst hb
      exact h.not_returned hm hj hnew ha
    | pending => exact h.once
    | timeout => exact h.once
  · intro m' hm' hone harrived
    rw [sent_delivered] at hm'
    rw [arrived_delivered] at harrived
    exact single_delivered h heffect hm hm' hone harrived
  · intro m' hm' hseveral hlater
    rw [sent_delivered] at hm'
    by_cases hmsg : m' = m
    · subst hmsg
      exact several_delivered_self h heffect hm hj hnew hseveral (noneLater_of_delivered hlater)
    · exact several_delivered_other h heffect hm hm' hmsg hseveral hlater

end Arrived

end Delivered

theorem inv_step (h : Inv clientOf s) {a : Action} (hstep : step clientOf s a = some (s', out)) :
    Inv clientOf s' := by
  cases a with
  | send sourceAddr payload => exact inv_send h hstep
  | deliver i =>
    have hi : i < s.flight.length := by
      simp only [step, bind_eq_some_iff] at hstep
      obtain ⟨p, hp, -⟩ := hstep
      exact (List.getElem?_eq_some_iff.1 hp).1
    obtain ⟨m, hm, j, hj, stats, received, out', hget, hnew, heffect, heq⟩ := step_deliver h hi
    rw [heq, Option.some.injEq, Prod.mk.injEq] at hstep
    obtain ⟨rfl, -⟩ := hstep
    exact inv_delivered h hm hj hget hnew heffect
  | lose i => exact inv_lose h hstep

/-- What was returned stays returned. -/
theorem returned_step {a : Action} (hstep : step clientOf s a = some (s', out)) :
    s'.returned.map Prod.snd = s.returned.map Prod.snd ++ out.toList ∧
      ∀ r ∈ s.returned, r ∈ s'.returned := by
  cases a with
  | send sourceAddr payload =>
    obtain ⟨m, -, -, -, heq⟩ := step_send_eq clientOf _ (sendable_of_step hstep)
    rw [heq, Option.some.injEq, Prod.mk.injEq] at hstep
    obtain ⟨rfl, rfl⟩ := hstep
    exact ⟨(append_nil _).symm, fun r hr => hr⟩
  | deliver i =>
    simp only [step, bind_eq_some_iff] at hstep
    obtain ⟨p, -, pkt, -, ⟨stats, received⟩, -, hstep⟩ := hstep
    cases received with
    | message payload =>
      cases hstep
      exact ⟨by simp, fun r hr => mem_append_left _ hr⟩
    | pending =>
      cases hstep
      exact ⟨(append_nil _).symm, fun r hr => hr⟩
    | timeout =>
      cases hstep
      exact ⟨(append_nil _).symm, fun r hr => hr⟩
  | lose i =>
    simp only [step, bind_eq_some_iff, pure_eq_some_iff, Prod.mk.injEq] at hstep
    obtain ⟨-, -, rfl, rfl⟩ := hstep
    exact ⟨(append_nil _).symm, fun r hr => hr⟩

end Invariant

section Runs

variable {clientOf : NetworkAddr → Nat} {s t : UdpNetwork}
  {tr : List (Action × Option (List UInt8))}

theorem returned_of_runs (h : Runs (step clientOf) anyAction s tr t)
    {r : (NetworkAddr × Nat) × List UInt8} (hr : r ∈ s.returned) : r ∈ t.returned := by
  refine Runs.invariant (P := fun u => r ∈ u.returned) h hr ?_
  intro u a u' out hbefore _ hstep
  exact (returned_step hstep).2 r hbefore

/-- The payloads that the server returned, in the order in which it did. -/
theorem outputs_eq_returned (h : Runs (step clientOf) anyAction initial tr s) :
    s.returned.map Prod.snd = tr.reverse.filterMap Prod.snd := by
  refine Runs.trace_invariant
    (P := fun tr s => s.returned.map Prod.snd = tr.reverse.filterMap Prod.snd) h rfl ?_
  intro tr t a t' out hbefore _ hstep
  rw [(returned_step hstep).1, hbefore, reverse_cons, filterMap_append]
  cases out <;> rfl

/-- A message of which all fragments have arrived, and none of a later message of its source, was
returned. -/
theorem Inv.returned_of_arrived (h : Inv clientOf s) {m : Message} (hm : m ∈ s.sent)
    (hall : ∀ j < m.fragmentCnt, m.fragmentId j ∈ s.arrived) (hlater : s.NoneLater m) :
    (m.id, m.payload) ∈ s.returned := by
  have hpos := getFragmentCnt_pos m.payload.length
  suffices hreturned : s.Returned m by
    obtain ⟨r, hr, hid⟩ := List.mem_map.1 hreturned
    obtain ⟨m', hm', rfl, -⟩ := h.returned r hr
    rwa [h.eq_of_id hm' hm hid] at hr
  rcases Nat.lt_or_ge 1 m.fragmentCnt with hseveral | hsingle
  · rcases h.several m hm hseveral hlater with hdone | hkeeps
    · exact hdone
    · -- the entry of the source would track all fragments of an incomplete message
      exfalso
      obtain ⟨entry, hentry, hseq, -⟩ := hkeeps 0 (hall 0 hpos)
      obtain ⟨m', hm', haddr, htracked, -⟩ := h.entries _ entry hentry
      obtain rfl : m' = m := h.eq_of_id hm' hm (Prod.ext haddr (htracked.msgSeqnum.symm.trans hseq))
      have hsub : Finset.range m'.fragmentCnt ⊆
          (entry.fragidxFragpayloadMap.map Prod.fst).toFinset := fun j hj => by
        obtain ⟨entry', hentry', -, htracks⟩ := hkeeps j (hall j (Finset.mem_range.1 hj))
        obtain rfl : entry = entry' := Option.some.inj (hentry.symm.trans hentry')
        exact List.mem_toFinset.2 htracks
      have hcard := (Finset.card_le_card hsub).trans (List.toFinset_card_le _)
      rw [Finset.card_range, List.length_map] at hcard
      have hincomplete := htracked.incomplete
      omega
  · exact h.single m hm (Nat.le_antisymm hsingle hpos) (hall 0 hpos)

/-- After any sends, deliveries and losses: what the server returned are payloads of messages that
were sent, each message at most once. A message of which all fragments have arrived, and no fragment
of a later message of several fragments of the same source, was returned. No delivery aborts. -/
theorem delivery_exact (h : Runs (step clientOf) anyAction initial tr s) :
    (tr.reverse.filterMap Prod.snd = s.returned.map Prod.snd ∧
      (∀ r ∈ s.returned, ∃ m ∈ s.sent, r = (m.id, m.payload)) ∧
      (s.returned.map Prod.fst).Nodup ∧ (s.sent.map Message.id).Nodup) ∧
    (∀ m ∈ s.sent, (∀ j < m.fragmentCnt, m.fragmentId j ∈ s.arrived) → s.NoneLater m →
      ∀ tr' t, Runs (step clientOf) anyAction s tr' t → (m.id, m.payload) ∈ t.returned) ∧
    ∀ i < s.flight.length, (step clientOf s (.deliver i)).isSome = true := by
  have hinv : Inv clientOf s := h.invariant (inv_initial clientOf) fun hbefore _ => inv_step hbefore
  refine ⟨⟨(outputs_eq_returned h).symm, fun r hr => ?_, hinv.once, hinv.sent⟩, ?_, fun i hi => ?_⟩
  · obtain ⟨m, hm, heq, -⟩ := hinv.returned r hr
    exact ⟨m, hm, heq⟩
  · intro m hm hall hlater tr' t hrun
    exact returned_of_runs hrun (hinv.returned_of_arrived hm hall hlater)
  · obtain ⟨m, -, j, -, stats, received, out, -, -, -, hstep⟩ := step_deliver hinv hi
    rw [hstep, Option.isSome_some]

end Runs

/-- One client with the port `5000` of the local host. -/
def localAddr : NetworkAddr := ⟨[49, 50, 55, 46, 48, 46, 48, 46, 49], 5000⟩

/-- A message of two fragments that this client sends first, and whose fragments both arrive. -/
theorem exists_twoFragments (C : UdpNetwork → Action → Prop) {payload : List UInt8}
    (hpayload : payload ≠ []) (hlength : payload.length < 2 ^ 32)
    (hcnt : getFragmentCnt payload.length = 2) (hsends : C initial (.send localAddr payload))
    (hdelivers : ∀ s i, C s (.deliver i)) :
    ∃ tr s m, Runs (step fun _ => 0) C initial tr s ∧ m ∈ s.sent ∧ m.payload = payload ∧
      m.fragmentCnt = 2 ∧ (∀ j < m.fragmentCnt, m.fragmentId j ∈ s.arrived) ∧ s.NoneLater m := by
  have hsendable : Sendable 0 localAddr payload :=
    ⟨⟨by decide +kernel, by decide⟩, by decide, hpayload, hlength⟩
  obtain ⟨m, haddr, rfl, -, hsend⟩ := step_send_eq (fun _ => 0) initial hsendable
  have hcnt : m.fragmentCnt = 2 := hcnt
  rw [hcnt] at hsend
  obtain ⟨t, hflight, hsent, harrived, hsend⟩ : ∃ t : UdpNetwork,
      t.flight.map Prod.fst = [m.fragmentId 0, m.fragmentId 1] ∧ t.sent = [m] ∧ t.arrived = [] ∧
        step (fun _ => 0) initial (.send localAddr m.payload) = some (t, none) :=
    ⟨_, rfl, rfl, rfl, hsend⟩
  have hlength : t.flight.length = 2 := by rw [← List.length_map, hflight]; rfl
  have hinv := inv_send (inv_initial _) hsend
  -- the first fragment
  obtain ⟨m1, -, j1, -, stats1, received1, out1, hget1, -, -, hdeliver1⟩ :=
    step_deliver hinv (i := 0) (by rw [hlength]; decide)
  have hfrag1 : m.fragmentId 0 = m1.fragmentId j1 := by
    have hfirst := congrArg (Option.map Prod.fst) hget1
    rwa [← List.getElem?_map, hflight, Option.map_some, List.getElem?_cons_zero,
      Option.some.injEq] at hfirst
  -- the second fragment
  obtain ⟨m2, -, j2, -, stats2, received2, out2, hget2, -, -, hdeliver2⟩ :=
    step_deliver (inv_step hinv hdeliver1) (i := 0) (by simp [hlength])
  have hfrag2 : m.fragmentId 1 = m2.fragmentId j2 := by
    have hfirst := congrArg (Option.map Prod.fst) hget2
    rwa [← List.getElem?_map, flight_delivered, List.eraseIdx_zero, List.map_tail, hflight,
      Option.map_some, List.tail_cons, List.getElem?_cons_zero, Option.some.injEq] at hfirst
  obtain ⟨u, hu⟩ : ∃ u, u = (t.delivered 0 (m1.fragmentId j1) stats1 received1).delivered 0
      (m2.fragmentId j2) stats2 received2 := ⟨_, rfl⟩
  have husent : u.sent = [m] := by rw [hu, sent_delivered, sent_delivered, hsent]
  have huarrived : u.arrived = [m.fragmentId 0, m.fragmentId 1] := by
    rw [hu, arrived_delivered, arrived_delivered, harrived, hfrag1, hfrag2]
    rfl
  refine ⟨_, u, m, .cons (.cons (.cons .nil hsends hsend) (hdelivers t 0) hdeliver1)
    (hdelivers _ 0) (hu ▸ hdeliver2), ?_, rfl, hcnt, fun j hj => ?_, fun m' hm' _ hlater => ?_⟩
  · rw [husent]
    exact List.mem_singleton_self m
  · rw [hcnt] at hj
    rw [huarrived]
    rcases Nat.lt_or_ge j 1 with hj0 | hj1
    · rw [Nat.lt_one_iff.1 hj0]
      exact List.mem_cons_self
    · rw [Nat.le_antisymm (Nat.le_of_lt_succ hj) hj1]
      exact List.mem_cons_of_mem _ (List.mem_singleton_self _)
  · rw [husent, List.mem_singleton] at hm'
    exact absurd hlater (by rw [hm']; exact Nat.lt_irrefl _)

/-- A payload with one byte more than a packet can have. -/
def largePayload : List UInt8 := List.replicate (udpMaxFragPayload + 1) 7

theorem length_largePayload : largePayload.length = udpMaxFragPayload + 1 :=
    List.length_replicate ..

theorem sendable_largePayload : Sendable 0 localAddr largePayload := by
  refine ⟨⟨by decide +kernel, by decide⟩, by decide, ?_, ?_⟩
  · exact List.ne_nil_of_length_eq_add_one length_largePayload
  · rw [length_largePayload]
    decide

/-- Both fragments of the message arrive, and it is returned. -/
theorem delivery_exact_largePayload :
    ∃ tr s m, Runs (step fun _ => 0) anyAction initial tr s ∧ m ∈ s.sent ∧
      m.payload = largePayload ∧ m.fragmentCnt = 2 ∧ (m.id, largePayload) ∈ s.returned := by
  obtain ⟨-, -, hne, hlt⟩ := sendable_largePayload
  obtain ⟨tr, s, m, hrun, hm, hpayload, hcnt, hall, hlater⟩ := exists_twoFragments anyAction hne hlt
    (by rw [length_largePayload]; decide) trivial fun _ _ => trivial
  refine ⟨tr, s, m, hrun, hm, hpayload, hcnt, ?_⟩
  rw [← hpayload]
  exact (delivery_exact hrun).2.1 m hm hall hlater _ _ .nil

end UdpNetwork

end Covered.Network
