import Covered.Message.MessageRoundTrip
import Covered.Network.Delivery

/-!
# Messages over the network

A client makes the payload of a message by its serialization and sends it in fragments; a server
makes a message of each payload that it has put together. `messages_delivered` joins the round trip
of the message format and the delivery of payloads: every payload that a server returns is read as
what the sender of one message said, under any order, delay and loss of the fragments.
-/

set_option autoImplicit false

namespace Covered.Message

open Common Lib.Checked Lib.Execution Network Network.UdpNetwork

namespace MessageBase

variable {isTrackEvent : Bool}

/-- The payload that a client makes of a message, in an array of exactly the counted bytes. -/
def sendPayload (m : MessageBase isTrackEvent) : Option (List UInt8) := do
  let messagePayload ← DynamicArray.ofCapacity m.getMsgPayloadSize
  let (messagePayload, serializeSize) ← m.serialize messagePayload
  require (serializeSize = m.getMsgPayloadSize)
  return messagePayload.bytes

/-- The factory for the kind of message that a server waits for. -/
def fromMsgPayload (isResponse : Bool) (msgPayload : DynamicArray) :
    Option (MessageBase isTrackEvent) :=
  if isResponse = true then getResponseFromMsgPayload msgPayload
  else getRequestFromMsgPayload msgPayload

/-- The payload that goes over the network is that of the message. -/
structure CarriedBy (m : MessageBase isTrackEvent) (payload : List UInt8) : Prop where
  constructed : m.Constructed
  inRange : m.InRange
  payload : m.sendPayload = some payload

/-- A payload carries a message, and whoever waits for its kind reads what the sender said. -/
def Readable (isTrackEvent : Bool) (payload : List UInt8) : Prop :=
  ∃ m r : MessageBase isTrackEvent, m.CarriedBy payload ∧ m.Delivers r ∧
    ∀ msgPayload : DynamicArray, msgPayload.bytes = payload →
      fromMsgPayload m.isResponse msgPayload = some r

/-- Clients send messages. -/
def SendsMessages (isTrackEvent : Bool) : UdpNetwork → Action → Prop
  | _, .send _ payload => ∃ m : MessageBase isTrackEvent, m.CarriedBy payload
  | _, _ => True

/-- A message has one payload, and the factory of its kind reads it. -/
theorem CarriedBy.readable {m : MessageBase isTrackEvent} {payload : List UInt8}
    (h : m.CarriedBy payload) : Readable isTrackEvent payload := by
  obtain ⟨arrived, typeBytes, rest, hwire, hdelivers⟩ := exists_wire h.constructed h.inRange
  refine ⟨m, _, h, hdelivers, fun msgPayload hbytes => ?_⟩
  -- the payload is what the serialization wrote
  have hpayload := h.payload
  simp only [sendPayload, bind_eq_some_iff, pure_eq_some_iff] at hpayload
  obtain ⟨array, harray, ⟨written, size⟩, hserialize, -, -, rfl⟩ := hpayload
  have hcapacity : m.getMsgPayloadSize ≤ array.capacity := by
    unfold DynamicArray.ofCapacity at harray
    split at harray
    · cases harray
      exact le_rfl
    · cases harray
  obtain ⟨written', left, hserialize', hwritten, -⟩ := hwire.serialize_eq hcapacity
  rw [hserialize', Option.some.injEq, Prod.mk.injEq] at hserialize
  obtain ⟨rfl, -⟩ := hserialize
  exact hwire.factory_eq h.constructed rfl (hbytes.trans hwritten)

/-- A message whose size fits in an array has a payload of the counted size. -/
theorem exists_carriedBy {m : MessageBase isTrackEvent} (hm : m.Constructed) (hrange : m.InRange)
    (hsize : m.getMsgPayloadSize < 2 ^ 32) :
    ∃ payload, m.CarriedBy payload ∧ payload.length = m.getMsgPayloadSize := by
  obtain ⟨arrived, typeBytes, rest, hwire, -⟩ := exists_wire hm hrange
  obtain ⟨empty, hempty, hcapacity⟩ : ∃ empty,
      DynamicArray.ofCapacity m.getMsgPayloadSize = some empty ∧
        empty.capacity = m.getMsgPayloadSize :=
    ⟨_, DynamicArray.ofCapacity_eq hsize, rfl⟩
  obtain ⟨array, left, hserialize, hbytes, hsame⟩ :=
    hwire.serialize_eq (Nat.le_of_eq hcapacity.symm)
  -- the bytes of the message fill the array
  have hlength : array.bytes.length = m.getMsgPayloadSize := by
    refine Nat.le_antisymm (array.fits.trans_eq (hsame.trans hcapacity)) ?_
    rw [hbytes, List.length_append, hwire.length]
    exact Nat.le_add_right ..
  refine ⟨array.bytes, ⟨hm, hrange, ?_⟩, hlength⟩
  simp only [sendPayload, hempty, hserialize, require, if_true, Option.bind_eq_bind,
    Option.bind_some, Option.pure_def]

section Runs

variable {clientOf : Common.NetworkAddr → Nat} {s : UdpNetwork}
  {tr : List (Action × Option (List UInt8))}

theorem sent_readable (h : Runs (step clientOf) (SendsMessages isTrackEvent) initial tr s) :
    ∀ msg ∈ s.sent, Readable isTrackEvent msg.payload := by
  have hboth : UdpNetwork.Inv clientOf s ∧ ∀ msg ∈ s.sent, Readable isTrackEvent msg.payload := by
    refine Runs.invariant (P := fun u => UdpNetwork.Inv clientOf u ∧
      ∀ msg ∈ u.sent, Readable isTrackEvent msg.payload) h
      ⟨inv_initial clientOf, fun _ hmsg => absurd hmsg List.not_mem_nil⟩ ?_
    rintro t a t' out ⟨hinv, hread⟩ hsends hstep
    refine ⟨inv_step hinv hstep, ?_⟩
    cases a with
    | send sourceAddr payload =>
      obtain ⟨m, hm⟩ := hsends
      obtain ⟨msg, -, rfl, -, heq⟩ := step_send_eq clientOf t (sendable_of_step hstep)
      rw [heq, Option.some.injEq, Prod.mk.injEq] at hstep
      obtain ⟨rfl, -⟩ := hstep
      intro msg' hmsg
      -- one message is added, which is that of the sender
      rcases List.mem_append.1 hmsg with hmsg | hmsg
      · exact hread msg' hmsg
      · rw [List.mem_singleton.1 hmsg]
        exact hm.readable
    | deliver i =>
      simp only [step, bind_eq_some_iff] at hstep
      obtain ⟨p, -, pkt, -, ⟨stats, received⟩, -, hstep⟩ := hstep
      cases received <;> cases hstep <;> exact hread
    | lose i =>
      simp only [step, bind_eq_some_iff, pure_eq_some_iff, Prod.mk.injEq] at hstep
      obtain ⟨-, -, rfl, -⟩ := hstep
      exact hread
  exact hboth.2

/-- Under any sends, deliveries and losses, every payload that a server returns is that of one
message that was sent, and is read as what its sender said; so is every message whose fragments
have all arrived, before any fragment of a later one. -/
theorem messages_delivered
    (h : Runs (step clientOf) (SendsMessages isTrackEvent) initial tr s) :
    (tr.reverse.filterMap Prod.snd = s.returned.map Prod.snd ∧
      (s.returned.map Prod.fst).Nodup ∧
      ∀ returned ∈ s.returned, ∃ msg ∈ s.sent, returned = (msg.id, msg.payload) ∧
        Readable isTrackEvent msg.payload) ∧
    ∀ msg ∈ s.sent, (∀ j < msg.fragmentCnt, msg.fragmentId j ∈ s.arrived) → s.NoneLater msg →
      (msg.id, msg.payload) ∈ s.returned ∧ Readable isTrackEvent msg.payload := by
  have hany : Runs (step clientOf) anyAction initial tr s := h.mono fun _ _ _ => trivial
  have hinv : UdpNetwork.Inv clientOf s :=
    hany.invariant (inv_initial clientOf) fun hbefore _ => inv_step hbefore
  have hread := sent_readable h
  -- the network returns payloads as they were sent, and each of these is readable
  refine ⟨⟨(outputs_eq_returned hany).symm, hinv.once, fun returned hreturned => ?_⟩,
    fun msg hmsg hall hlater => ⟨hinv.returned_of_arrived hmsg hall hlater, hread msg hmsg⟩⟩
  obtain ⟨msg, hmsg, heq, -⟩ := hinv.returned returned hreturned
  exact ⟨msg, hmsg, heq, hread msg hmsg⟩

end Runs

/-- A client deletes a key. -/
def deleteRequest (key : Key) : MessageBase false :=
  create .localDelRequest 0 ⟨inetNtop [127, 0, 0, 1], 5000, true⟩ BandwidthUsage.zero
    (emptyEventList false) ⟨false, false, 0⟩ (Function.update Member.fresh .key key)

theorem size_deleteRequest (key : Key) :
    (deleteRequest key).getMsgPayloadSize = 24 + key.getKeyPayloadSize := rfl

theorem inRange_deleteRequest {key : Key} (hkey : key.getKeyPayloadSize < 2 ^ 32) :
    (deleteRequest key).InRange := by
  have hevents : (0 : Nat) < 2 ^ 32 := by decide
  refine ⟨⟨127, 0, 0, 1, rfl⟩, ⟨hevents, nofun⟩, fun member hmember => ?_⟩
  have hone : member ∈ [Member.key] := hmember
  rw [List.mem_singleton.1 hone]
  exact hkey

/-- A key that has as many bytes as a packet can carry. -/
def largeKey : Key := ⟨List.replicate udpMaxFragPayload 7⟩

theorem size_largeKey : largeKey.getKeyPayloadSize = 4 + udpMaxFragPayload :=
  congrArg (4 + ·) (List.length_replicate ..)

/-- The request goes over the network in two fragments. -/
theorem messages_delivered_deleteRequest :
    ∃ tr s msg, Runs (step fun _ => 0) (SendsMessages false) initial tr s ∧ msg ∈ s.sent ∧
      msg.fragmentCnt = 2 ∧ (deleteRequest largeKey).CarriedBy msg.payload ∧
      (msg.id, msg.payload) ∈ s.returned ∧ Readable false msg.payload := by
  have hsize : (deleteRequest largeKey).getMsgPayloadSize = udpMaxFragPayload + 28 := by
    rw [size_deleteRequest, size_largeKey]
    omega
  have hrange : (deleteRequest largeKey).InRange := inRange_deleteRequest (by
    rw [size_largeKey]
    decide)
  have hlt : (deleteRequest largeKey).getMsgPayloadSize < 2 ^ 32 := by
    rw [hsize]
    decide
  obtain ⟨payload, hcarried, hlength⟩ :=
    exists_carriedBy ⟨_, _, _, _, _, _, _, rfl⟩ hrange hlt
  have hne : payload ≠ [] := List.ne_nil_of_length_eq_add_one (hlength.trans hsize)
  obtain ⟨tr, s, msg, hrun, hmsg, rfl, hcnt, hall, hlater⟩ :=
    exists_twoFragments (SendsMessages false) hne (hlength ▸ hlt)
      (by rw [hlength.trans hsize]; decide) ⟨_, hcarried⟩ fun _ _ => trivial
  exact ⟨tr, s, msg, hrun, hmsg, hcnt, hcarried, (messages_delivered hrun).2 msg hmsg hall hlater⟩

end MessageBase

end Covered.Message
