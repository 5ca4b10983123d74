import Covered.Message.MessageBase

/-!
# Round trip of messages

`message_roundTrip` is that a message of any class is written as exactly the counted bytes, that the
factory of its kind reads exactly these and makes an object of the same class, and that the object
has what the sender said. All fields are the same but for two kinds of values that are not sent and
that the receiver does not use: those of stale victims in a syncset and those of objects that are
not tracked.

The flag `isResponse` decides at both ends whether bandwidth usage and events are there. A sender
computes it from the type of its class and a receiver from the type that it reads, so the header is
the same at both ends as soon as the type is.
-/

set_option autoImplicit false

namespace Covered.Message

open Common Lib.ByteStream Lib.Checked Lib.RecordStream Lib.SingleFloat Victim

namespace MessageBase

variable {isTrackEvent : Bool}

/-- The message is the result of a constructor. -/
def Constructed (m : MessageBase isTrackEvent) : Prop :=
  ∃ leafClass sourceIndex sourceAddr bandwidthUsage eventList extraCommonMsghdr body,
    m = create leafClass sourceIndex sourceAddr bandwidthUsage eventList extraCommonMsghdr body

/-- The fields of a message can be sent. -/
structure InRange (m : MessageBase isTrackEvent) : Prop where
  sourceAddr : m.sourceAddr.IsDottedQuad
  eventList : m.eventList.InRange
  body : ∀ member ∈ m.leafClass.baseClass.members, member.InRange (m.body member)

/-- The object `r` of the receiver says what the message `m` says. -/
structure Delivers (m r : MessageBase isTrackEvent) : Prop where
  leafClass : r.leafClass = m.leafClass
  messageType : r.messageType = m.messageType
  sourceIndex : r.sourceIndex = m.sourceIndex
  ipstr : r.sourceAddr.ipstr = m.sourceAddr.ipstr
  port : r.sourceAddr.port = m.sourceAddr.port
  bandwidthUsage : r.bandwidthUsage = m.bandwidthUsage
  eventList : r.eventList = m.eventList
  extraCommonMsghdr : r.extraCommonMsghdr = m.extraCommonMsghdr
  isResponse : r.isResponse = m.isResponse
  body : ∀ member ∈ m.leafClass.baseClass.members,
    member.Delivers (m.body member) (r.body member)

/-! ## Constructed messages -/

section Constructed

variable {m : MessageBase isTrackEvent}

theorem Constructed.messageType (h : m.Constructed) : m.messageType = m.leafClass := by
  obtain ⟨leafClass, _, _, _, _, _, _, rfl⟩ := h
  rfl

theorem Constructed.isResponse (h : m.Constructed) :
    m.isResponse = (m.messageType.isDataResponse || m.messageType.isControlResponse) := by
  obtain ⟨leafClass, _, _, _, _, _, _, rfl⟩ := h
  rfl

/-- A request has no bandwidth usage and no events. -/
theorem Constructed.request (h : m.Constructed) (hrequest : m.isResponse = false) :
    m.bandwidthUsage = BandwidthUsage.zero ∧ m.eventList = emptyEventList isTrackEvent := by
  obtain ⟨leafClass, _, _, _, _, _, _, rfl⟩ := h
  have hnot : ¬ leafClass.takesBandwidthUsage = true := by
    intro htakes
    have hresponse := leafClass.response_of_takesBandwidthUsage htakes
    have hrequest' : (leafClass.isDataResponse || leafClass.isControlResponse) = false := hrequest
    rw [hresponse] at hrequest'
    cases hrequest'
  exact ⟨if_neg hnot, if_neg hnot⟩

theorem Constructed.body (h : m.Constructed) :
    ∃ body, m.body = m.leafClass.baseClass.construct body := by
  obtain ⟨leafClass, _, _, _, _, _, body, rfl⟩ := h
  exact ⟨body, rfl⟩

end Constructed

/-! ## Bytes of a message -/

theorem delivers_messageType (t : MessageType) : messageTypeCodec.Delivers t t :=
  Codec.delivers_bigEndian t.number_lt t.ofNumber_number

/-- The bytes of a message begin with those of its type. -/
structure Wire (m r : MessageBase isTrackEvent) (typeBytes rest : List UInt8) : Prop where
  messageType : messageTypeCodec.Wire m.messageType m.messageType typeBytes
  length : (typeBytes ++ rest).length = m.getMsgPayloadSize
  emits : ∀ {S : Type} (sink : Sink S), Emits sink (m.serializeTo sink) (typeBytes ++ rest)
  parses : ∀ {S : Type} (source : Source S),
    Parses source (deserializeFrom source m.leafClass) r (typeBytes ++ rest)

/-- The object that a receiver makes of a message, with the given members. -/
def receivedWith (m : MessageBase isTrackEvent) (arrived : Body) : MessageBase isTrackEvent :=
  { m with
    sourceAddr := ⟨m.sourceAddr.ipstr, m.sourceAddr.port, true⟩
    body := arrived
    isResponse := m.messageType.isDataResponse || m.messageType.isControlResponse }

section Wire

variable {m r : MessageBase isTrackEvent} {typeBytes rest : List UInt8}

/-- The header and the members one after the other. -/
theorem wire_of_body (hm : m.Constructed) (hquad : m.sourceAddr.IsDottedQuad)
    (hevents : m.eventList.InRange) {arrived : Body}
    (hbody : m.leafClass.baseClass.codec.Delivers m.body arrived) :
    ∃ typeBytes rest, Wire m (m.receivedWith arrived) typeBytes rest := by
  obtain ⟨typeBytes, htype⟩ := delivers_messageType m.messageType
  obtain ⟨index, hindex, hindexEmits, hindexParses⟩ := Codec.delivers_bigEndian32 m.sourceIndex
  obtain ⟨addr, haddr, haddrEmits, haddrParses⟩ := delivers_networkAddr hquad
  obtain ⟨response, hresponse, hresponseEmits, hresponseParses⟩ :=
    (BandwidthUsage.delivers m.bandwidthUsage).pair (delivers_eventList hevents)
  obtain ⟨extra, hextra, hextraEmits, hextraParses⟩ :=
    delivers_extraCommonMsghdr m.extraCommonMsghdr
  obtain ⟨body, hbody, hbodyEmits, hbodyParses⟩ := hbody
  refine ⟨typeBytes,
    index ++ (addr ++ ((if m.isResponse = true then response else []) ++ (extra ++ body))),
    htype, ?_, ?_, ?_⟩
  · rw [getMsgPayloadSize, getCommonMsghdrSize, ← htype.length, ← hindex, ← haddr, ← hextra,
      ← hbody, show (responseCodec isTrackEvent).size (m.bandwidthUsage, m.eventList) =
        response.length from hresponse.symm]
    simp only [List.length_append, apply_ite List.length, List.length_nil]
    split <;> omega
  · intro S sink
    refine (htype.emits sink).andThen ((hindexEmits sink).andThen ((haddrEmits sink).andThen ?_))
    refine (Emits.onlyIf fun _ => hresponseEmits sink).andThen ?_
    exact (hextraEmits sink).andThen (hbodyEmits sink)
  · intro S source
    have hsame : (if m.isResponse = true then (m.bandwidthUsage, m.eventList)
        else (BandwidthUsage.zero, emptyEventList isTrackEvent)) =
        (m.bandwidthUsage, m.eventList) := by
      split
      · rfl
      · next hrequest =>
        obtain ⟨hzero, hempty⟩ := hm.request (Bool.eq_false_iff.2 hrequest)
        rw [hzero, hempty]
    have hread : Parses source
        (optional ((m.messageType.isDataResponse || m.messageType.isControlResponse) = true)
          ((responseCodec isTrackEvent).read source)
          (BandwidthUsage.zero, emptyEventList isTrackEvent))
        (m.bandwidthUsage, m.eventList) (if m.isResponse = true then response else []) := by
      rw [← hm.isResponse, ← hsame]
      exact Parses.optional fun _ => hresponseParses source
    refine (htype.parses source).andThen ((hindexParses source).andThen ?_)
    refine (haddrParses source).andThen (hread.andThen ((hextraParses source).andThen ?_))
    exact (hbodyParses source).map m.receivedWith

theorem Wire.serialize_eq (h : Wire m r typeBytes rest) {msgPayload : DynamicArray}
    (hcapacity : m.getMsgPayloadSize ≤ msgPayload.capacity) :
    ∃ array left, m.serialize msgPayload = some (array, m.getMsgPayloadSize) ∧
      array.bytes = (typeBytes ++ rest) ++ left ∧ array.capacity = msgPayload.capacity := by
  rw [← h.length] at hcapacity ⊢
  obtain ⟨⟨array, size⟩, hserialize, hwritten, hsize, -, hcapacity'⟩ :=
    h.emits DynamicArray.sink (msgPayload, 0) (msgPayload.capacity - (typeBytes ++ rest).length)
      ⟨Nat.zero_le _, by rw [Nat.zero_add, Nat.add_sub_cancel' hcapacity]⟩
  have hlength : size = (typeBytes ++ rest).length := by
    rw [show size = 0 + (typeBytes ++ rest).length from hsize, Nat.zero_add]
  have hprefix : array.bytes.take size = typeBytes ++ rest := hwritten
  refine ⟨array, array.bytes.drop size, ?_, ?_, ?_⟩
  · simp only [serialize, hserialize, some_bind, Option.pure_def, hlength]
  · rw [← hprefix, List.take_append_drop]
  · have hroom : size + (msgPayload.capacity - (typeBytes ++ rest).length) = array.capacity :=
      hcapacity'
    rw [← hroom, hlength, Nat.add_sub_cancel' hcapacity]

section Read

variable {msgPayload : DynamicArray} {left : List UInt8}

theorem Wire.deserialize_eq (h : Wire m r typeBytes rest)
    (hbytes : msgPayload.bytes = (typeBytes ++ rest) ++ left) :
    deserialize m.leafClass msgPayload = some (r, m.getMsgPayloadSize) := by
  obtain ⟨reader, hread, -, hsize⟩ :=
    h.parses DynamicArray.source ⟨msgPayload, 0, Nat.zero_le _⟩ left hbytes
  have hlength : reader.size = m.getMsgPayloadSize := by
    rw [← h.length, show reader.size = 0 + (typeBytes ++ rest).length from hsize, Nat.zero_add]
  simp only [deserialize, hread, some_bind, Option.pure_def, hlength]

/-- The type is read from the first bytes alone. -/
theorem Wire.messageType_eq (h : Wire m r typeBytes rest)
    (hbytes : msgPayload.bytes = (typeBytes ++ rest) ++ left) :
    deserializeMessageTypeFromMsgPayload msgPayload = some m.messageType := by
  rw [List.append_assoc] at hbytes
  obtain ⟨reader, hread, -, -⟩ :=
    h.messageType.parses DynamicArray.source ⟨msgPayload, 0, Nat.zero_le _⟩ (rest ++ left) hbytes
  simp only [deserializeMessageTypeFromMsgPayload, hread, some_bind, Option.pure_def]

/-- The factory of its kind has a case for the message, and its final check succeeds. -/
theorem Wire.factory_eq (h : Wire m r typeBytes rest) (hm : m.Constructed)
    (hr : r.messageType = m.messageType)
    (hbytes : msgPayload.bytes = (typeBytes ++ rest) ++ left) :
    (if m.isResponse = true then getResponseFromMsgPayload msgPayload
      else getRequestFromMsgPayload msgPayload) = some r := by
  have htype := h.messageType_eq hbytes
  have hread : deserialize m.messageType msgPayload = some (r, m.getMsgPayloadSize) := by
    rw [hm.messageType]
    exact h.deserialize_eq hbytes
  rw [hm.isResponse]
  by_cases hresponse : (m.messageType.isDataResponse || m.messageType.isControlResponse) = true
  · have hcase := m.messageType.mem_responseCases hresponse
    have hcheck : (r.messageType.isDataResponse || r.messageType.isControlResponse) = true := by
      rw [hr, hresponse]
    rw [if_pos hresponse]
    simp only [getResponseFromMsgPayload, htype, some_bind, require_bind hcase, hread,
      require_bind hcheck, Option.pure_def]
  · have hrequest : (m.messageType.isDataRequest || m.messageType.isControlRequest) = true := by
      rw [m.messageType.request_iff_not_response, Bool.eq_false_iff.2 hresponse]
      rfl
    have hcase := m.messageType.mem_requestCases hrequest
    have hcheck : m.messageType ∉ MessageType.specialCases →
        (r.messageType.isDataRequest || r.messageType.isControlRequest) = true := by
      intro _
      rw [hr, hrequest]
    rw [if_neg hresponse]
    simp only [getRequestFromMsgPayload, htype, some_bind, require_bind hcase, hread,
      require_bind hcheck, Option.pure_def]

end Read

end Wire

/-- A message has its bytes, and what a receiver makes of them says the same. -/
theorem exists_wire {m : MessageBase isTrackEvent} (hm : m.Constructed) (hrange : m.InRange) :
    ∃ arrived typeBytes rest, Wire m (m.receivedWith arrived) typeBytes rest ∧
      m.Delivers (m.receivedWith arrived) := by
  obtain ⟨body, hconstruct⟩ := hm.body
  have hmembers := hrange.body
  rw [hconstruct] at hmembers
  obtain ⟨arrived, hbody, harrived⟩ := BaseClass.delivers hmembers
  rw [← hconstruct] at hbody harrived
  obtain ⟨typeBytes, rest, hwire⟩ := wire_of_body hm hrange.sourceAddr hrange.eventList hbody
  refine ⟨arrived, typeBytes, rest, hwire, rfl, rfl, rfl, rfl, rfl, rfl, rfl, rfl,
    hm.isResponse.symm, fun member hmember => ?_⟩
  have hone : (m.receivedWith arrived).body member = member.received (m.body member) :=
    harrived member hmember
  rw [hone]
  exact member.delivers_received (hrange.body member hmember)

/-! ## The round trip -/

/-- A message is written as the counted bytes, and the factory of its kind reads exactly these bytes
into an object of the same class that says the same. -/
theorem message_roundTrip {m : MessageBase isTrackEvent} (hm : m.Constructed) (hrange : m.InRange) :
    m.isResponse = (m.messageType.isDataResponse || m.messageType.isControlResponse) ∧
    ∃ (bytes : List UInt8) (r : MessageBase isTrackEvent),
      bytes.length = m.getMsgPayloadSize ∧ m.Delivers r ∧
      (∀ msgPayload : DynamicArray, m.getMsgPayloadSize ≤ msgPayload.capacity →
        ∃ array rest, m.serialize msgPayload = some (array, m.getMsgPayloadSize) ∧
          array.bytes = bytes ++ rest) ∧
      ∀ (msgPayload : DynamicArray) (rest : List UInt8), msgPayload.bytes = bytes ++ rest →
        deserialize m.leafClass msgPayload = some (r, m.getMsgPayloadSize) ∧
        (if m.isResponse = true then getResponseFromMsgPayload msgPayload
          else getRequestFromMsgPayload msgPayload) = some r := by
  obtain ⟨arrived, typeBytes, rest, hwire, hdelivers⟩ := exists_wire hm hrange
  refine ⟨hm.isResponse, typeBytes ++ rest, _, hwire.length, hdelivers, ?_, ?_⟩
  · intro msgPayload hcapacity
    obtain ⟨array, left, hserialize, hbytes, -⟩ := hwire.serialize_eq hcapacity
    exact ⟨array, left, hserialize, hbytes⟩
  · exact fun msgPayload left hbytes =>
      ⟨hwire.deserialize_eq hbytes, hwire.factory_eq hm rfl hbytes⟩

/-- A request for a redirected object with the given syncset. -/
def redirectedGetRequest (syncset : VictimSyncset) : MessageBase false :=
  create .coveredRedirectedGetRequest 0 ⟨inetNtop [127, 0, 0, 1], 4100, true⟩ BandwidthUsage.zero
    (emptyEventList false) ⟨false, false, 0⟩
    (Function.update (Function.update Member.fresh .key (⟨[7]⟩ : Key)) .victimSyncset syncset)

theorem constructed_redirectedGetRequest (syncset : VictimSyncset) :
    (redirectedGetRequest syncset).Constructed :=
  ⟨_, _, _, _, _, _, _, rfl⟩

theorem size_redirectedGetRequest (syncset : VictimSyncset) :
    (redirectedGetRequest syncset).getMsgPayloadSize =
      29 + syncset.getVictimSyncsetPayloadSize := by
  show 24 + (5 + (syncset.getVictimSyncsetPayloadSize + 0)) = _
  omega

theorem inRange_redirectedGetRequest {syncset : VictimSyncset} (hsendable : syncset.Sendable)
    (hrange : syncset.InRange) : (redirectedGetRequest syncset).InRange := by
  have hnone : (0 : Nat) < 2 ^ 32 := by decide
  refine ⟨⟨127, 0, 0, 1, rfl⟩, ⟨hnone, nofun⟩, ?_⟩
  intro member hmember
  have hcases : member = .key ∨ member = .victimSyncset := by
    have hlist : member ∈ [Member.key, .victimSyncset] := hmember
    simpa using hlist
  rcases hcases with rfl | rfl
  · show Key.getKeyPayloadSize ⟨[7]⟩ < 2 ^ 32
    decide
  · exact ⟨hsendable, hrange⟩

/-- The request is read back from the payload to which it was written. -/
theorem message_roundTrip_redirectedGetRequest :
    ∃ (m r : MessageBase false) (array : DynamicArray),
      m.serialize VictimSyncset.emptyPayload = some (array, 57) ∧
      getRequestFromMsgPayload array = some r ∧ m.Delivers r := by
  obtain ⟨s, hs, hrange, -, hsize⟩ := VictimSyncset.compress_oneVictimLeft
  have hm := constructed_redirectedGetRequest s
  have hcount : (redirectedGetRequest s).getMsgPayloadSize = 57 := by
    rw [size_redirectedGetRequest, hsize]
  obtain ⟨-, bytes, r, -, hdelivers, hwrite, hread⟩ := message_roundTrip hm
    (inRange_redirectedGetRequest (VictimSyncset.sendable_of_compress hs) hrange)
  rw [hcount] at hwrite
  obtain ⟨array, rest, hserialize, hbytes⟩ := hwrite VictimSyncset.emptyPayload (by decide)
  exact ⟨_, r, array, hserialize, (hread array rest hbytes).2, hdelivers⟩

/-- The victim that is gone keeps its size in the request that is sent and not in the one that is
read. -/
theorem message_staleVictim :
    ∃ (m r : MessageBase false) (array : DynamicArray), m.Constructed ∧ m.InRange ∧
      m.serialize VictimSyncset.emptyPayload = some (array, 57) ∧
      getRequestFromMsgPayload array = some r ∧
      (VictimSyncset.localSyncedVictims (m.body .victimSyncset)).map VictimCacheinfo.objectSize =
        [2] ∧
      (VictimSyncset.localSyncedVictims (r.body .victimSyncset)).map VictimCacheinfo.objectSize =
        [0] := by
  obtain ⟨s, hs, hsyncset, hvictims, hsize⟩ := VictimSyncset.compress_oneVictimLeft
  have hm := constructed_redirectedGetRequest s
  have hrange := inRange_redirectedGetRequest (VictimSyncset.sendable_of_compress hs) hsyncset
  have hcount : (redirectedGetRequest s).getMsgPayloadSize = 57 := by
    rw [size_redirectedGetRequest, hsize]
  obtain ⟨arrived, hbody, harrived⟩ := BaseClass.delivers hrange.body
  obtain ⟨typeBytes, rest, hwire⟩ := wire_of_body hm hrange.sourceAddr hrange.eventList hbody
  have hcapacity : (redirectedGetRequest s).getMsgPayloadSize ≤
      VictimSyncset.emptyPayload.capacity := by
    rw [hcount]
    decide
  obtain ⟨array, left, hserialize, hbytes, -⟩ := hwire.serialize_eq hcapacity
  rw [hcount] at hserialize
  refine ⟨_, _, array, hm, hrange, hserialize, hwire.factory_eq hm rfl hbytes, ?_, ?_⟩
  · show s.localSyncedVictims.map VictimCacheinfo.objectSize = [2]
    rw [hvictims]
    rfl
  · have hmember : Member.victimSyncset ∈ [Member.key, .victimSyncset] := by decide
    have hreceived : arrived .victimSyncset = s.received := harrived .victimSyncset hmember
    show (VictimSyncset.localSyncedVictims (arrived .victimSyncset)).map
      VictimCacheinfo.objectSize = [0]
    rw [hreceived, VictimSyncset.received]
    dsimp only
    rw [hvictims]
    decide +kernel

end MessageBase

end Covered.Message
