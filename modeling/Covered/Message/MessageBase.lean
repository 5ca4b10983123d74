import Covered.Message.MessageType

/-!
# Messages

A message has a header, which is the same for all classes, and the members of its class. Bandwidth
usage and events are in the header of responses only; a message says so in `isResponse`, which its
constructor computes from the message type, and a reader computes it again from the type that it has
read. The factories look at the type first and read the whole message into an object of its class
after that.

`message_roundTrip` goes over all message types at once: what is specific to a class is in the lists
of `MessageType`.
-/

set_option autoImplicit false

namespace Covered.Message

open Common Lib.ByteStream Lib.Checked Lib.RecordStream Lib.SingleFloat Victim

/-! ## Members -/

namespace Member

/-- The values of a member that can be sent: lengths and edge indices are 32-bit numbers,
popularities are single-precision ones, and a syncset is complete or the result of a compression. -/
def InRange : (member : Member) → member.Carrier → Prop
  | .key, x => Key.getKeyPayloadSize x < 2 ^ 32
  | .value, x => x.valuesize < 2 ^ 32
  | .directoryInfo, x => x.targetEdgeIdx < 2 ^ 32
  | .collectedPopularity, x => IsFloat x.localUncachedPopularity
  | .victimSyncset, x => VictimSyncset.Sendable x ∧ VictimSyncset.InRange x
  | .victimFetchset, x => VictimSyncset.Sendable x ∧ VictimSyncset.InRange x
  | .edgeset, x => x.edges.length < 2 ^ 32
  | .fastPathHint, x =>
    IsFloat x.sumLocalUncachedPopularity ∧ IsFloat x.smallestMaxAdmissionBenefit
  | .hitflag, _ | .cacheSizeBytes, _ | .cacheCapacityBytes, _ | .byte, _ | .firstByte, _
  | .secondByte, _ | .unsignedInteger, _ | .isBeingWritten, _ | .isValidDirectoryExist, _
  | .syncinfo, _ | .placeinfo, _ | .aggregatedStatistics, _ | .firstAggregatedStatistics, _
  | .secondAggregatedStatistics, _ => True

/-- The receiver has what the sender says: the same value, up to what a syncset says about stale
victims and to the values of an object that is not tracked. -/
def Delivers : (member : Member) → member.Carrier → member.Carrier → Prop
  | .victimSyncset, sent, received => sent.Delivers received
  | .victimFetchset, sent, received => sent.Delivers received
  | .collectedPopularity, sent, received =>
    received.isTracked = sent.isTracked ∧ (sent.isTracked = true → received = sent)
  | .key, sent, received => received = sent
  | .value, sent, received => received = sent
  | .hitflag, sent, received => received = sent
  | .cacheSizeBytes, sent, received => received = sent
  | .cacheCapacityBytes, sent, received => received = sent
  | .byte, sent, received => received = sent
  | .firstByte, sent, received => received = sent
  | .secondByte, sent, received => received = sent
  | .unsignedInteger, sent, received => received = sent
  | .isBeingWritten, sent, received => received = sent
  | .isValidDirectoryExist, sent, received => received = sent
  | .directoryInfo, sent, received => received = sent
  | .edgeset, sent, received => received = sent
  | .fastPathHint, sent, received => received = sent
  | .syncinfo, sent, received => received = sent
  | .placeinfo, sent, received => received = sent
  | .aggregatedStatistics, sent, received => received = sent
  | .firstAggregatedStatistics, sent, received => received = sent
  | .secondAggregatedStatistics, sent, received => received = sent

/-- What arrives. -/
def received : (member : Member) → member.Carrier → member.Carrier
  | .victimSyncset, x => VictimSyncset.received x
  | .victimFetchset, x => VictimSyncset.received x
  | .collectedPopularity, x => CollectedPopularity.received x
  | .key, x | .value, x | .hitflag, x | .cacheSizeBytes, x | .cacheCapacityBytes, x | .byte, x
  | .firstByte, x | .secondByte, x | .unsignedInteger, x | .isBeingWritten, x
  | .isValidDirectoryExist, x | .directoryInfo, x | .edgeset, x | .fastPathHint, x | .syncinfo, x
  | .placeinfo, x | .aggregatedStatistics, x | .firstAggregatedStatistics, x
  | .secondAggregatedStatistics, x => x

theorem received_fresh (member : Member) : member.received member.fresh = member.fresh := by
  cases member <;> rfl

/-- A member in range is sent and arrives as `received` says. -/
theorem codec_delivers (member : Member) {x : member.Carrier} (h : member.InRange x) :
    member.codec.Delivers x (member.received x) := by
  cases member with
  | key => exact delivers_key h
  | value => exact delivers_value h
  | hitflag => exact Hitflag.delivers x
  | cacheSizeBytes => exact Codec.delivers_uint64 x
  | cacheCapacityBytes => exact Codec.delivers_uint64 x
  | byte => exact Codec.delivers_uint8 x
  | firstByte => exact Codec.delivers_uint8 x
  | secondByte => exact Codec.delivers_uint8 x
  | unsignedInteger => exact Codec.delivers_bigEndian32 x
  | isBeingWritten => exact Codec.delivers_bool x
  | isValidDirectoryExist => exact Codec.delivers_bool x
  | directoryInfo => exact delivers_directoryInfo h
  | collectedPopularity => exact CollectedPopularity.delivers h
  | victimSyncset => exact delivers_victimSyncset h.2
  | victimFetchset => exact delivers_victimSyncset h.2
  | edgeset => exact delivers_edgeset h
  | fastPathHint => exact delivers_fastPathHint h.1 h.2
  | syncinfo => exact (Codec.delivers_uint64 x.vtime).convert rfl
  | placeinfo => exact (Codec.delivers_uint32 x.placementEdgeIdx).convert rfl
  | aggregatedStatistics => exact AggregatedStatistics.delivers x
  | firstAggregatedStatistics => exact AggregatedStatistics.delivers x
  | secondAggregatedStatistics => exact AggregatedStatistics.delivers x

theorem delivers_received (member : Member) {x : member.Carrier} (h : member.InRange x) :
    member.Delivers x (member.received x) := by
  cases member with
  | victimSyncset => exact VictimSyncset.delivers_received h.1.canonical
  | victimFetchset => exact VictimSyncset.delivers_received h.1.canonical
  | collectedPopularity =>
    obtain ⟨isTracked, localUncachedPopularity, objectSize⟩ := x
    cases isTracked with
    | true => exact ⟨rfl, fun _ => rfl⟩
    | false => exact ⟨rfl, fun htracked => absurd htracked Bool.false_ne_true⟩
  | _ => rfl

end Member

namespace BaseClass

/-- What the constructors of a class make of their arguments. One class has two constructors: with a
valid directory it takes no popularity. -/
def construct (c : BaseClass) (body : Body) : Body :=
  if c = keyValidityDirectoryCollectpopVictimset ∧ body.isValidDirectoryExist = true then
    Function.update body .collectedPopularity CollectedPopularity.untracked
  else body

/-- The members of a class, written one after the other. -/
def codec (c : BaseClass) : Codec Body :=
  recordCodec Member.codec c.sizeEntries c.writtenEntries c.readEntries Member.fresh

variable {c : BaseClass}

/-- Whether a member is there is known when it is read. -/
theorem settled {sent arrived : Body} (h : c = keyValidityDirectoryCollectpopVictimset →
      arrived.isValidDirectoryExist = sent.isValidDirectoryExist) :
    Settled sent arrived c.sizeEntries := by
  by_cases hc : c = keyValidityDirectoryCollectpopVictimset
  · have hflag := h hc
    subst hc
    refine ⟨fun _ _ => rfl, fun _ _ => rfl, fun _ _ => rfl, ?_, fun _ _ => rfl, trivial⟩
    intro body hbody
    have hread : Body.isValidDirectoryExist body = sent.isValidDirectoryExist :=
      (hbody .isValidDirectoryExist (by decide)).trans hflag
    show (!Body.isValidDirectoryExist body) = !sent.isValidDirectoryExist
    rw [hread]
  · -- all the members of the other classes are always there
    have hall : c.sizeEntries = c.members.map always := by
      cases c <;> first | rfl | exact absurd rfl hc
    rw [hall]
    exact settled_always sent arrived c.members

/-- A member that is not there has no popularity to send. -/
theorem absent_member {body : Body} {e : Entry Member.Carrier}
    (he : e ∈ c.sizeEntries) (habsent : e.present (c.construct body) = false) :
    c.construct body e.member = Member.fresh e.member := by
  by_cases hc : c = keyValidityDirectoryCollectpopVictimset
  · subst hc
    by_cases hexist : body.isValidDirectoryExist = true
    · have hconstruct : keyValidityDirectoryCollectpopVictimset.construct body =
          Function.update body .collectedPopularity CollectedPopularity.untracked :=
        if_pos ⟨rfl, hexist⟩
      simp only [sizeEntries, List.mem_cons, List.not_mem_nil, or_false] at he
      rcases he with rfl | rfl | rfl | rfl | rfl
      · cases habsent
      · cases habsent
      · cases habsent
      · rw [hconstruct]
        rfl
      · cases habsent
    · have hconstruct : keyValidityDirectoryCollectpopVictimset.construct body = body :=
        if_neg fun h => hexist h.2
      rw [hconstruct] at habsent
      simp only [sizeEntries, List.mem_cons, List.not_mem_nil, or_false] at he
      rcases he with rfl | rfl | rfl | rfl | rfl
      · cases habsent
      · cases habsent
      · cases habsent
      · have hnot : (!body.isValidDirectoryExist) = false := habsent
        rw [Bool.not_eq_false'] at hnot
        exact absurd hnot hexist
      · cases habsent
  · have hall : c.sizeEntries = c.members.map always := by
      cases c <;> first | rfl | exact absurd rfl hc
    rw [hall] at he
    obtain ⟨member, -, rfl⟩ := List.mem_map.1 he
    cases habsent

/-- The members of a class arrive. -/
theorem delivers {body : Body}
    (h : ∀ member ∈ c.members, member.InRange (c.construct body member)) :
    ∃ arrived, c.codec.Delivers (c.construct body) arrived ∧
      ∀ member ∈ c.members, arrived member = member.received (c.construct body member) := by
  classical
  let Sent : Member → Prop := fun member =>
    ∃ e ∈ c.sizeEntries, e.present (c.construct body) = true ∧ e.member = member
  let arrived : Body := fun member =>
    if Sent member then member.received (c.construct body member) else member.fresh
  have hsent : ∀ e ∈ c.sizeEntries, e.present (c.construct body) = true →
      arrived e.member = e.member.received (c.construct body e.member) :=
    fun e he hpresent => if_pos ⟨e, he, hpresent, rfl⟩
  refine ⟨arrived, ?_, ?_⟩
  · rw [codec, writtenEntries_eq, readEntries_eq]
    refine delivers_record ?_ (settled ?_) ?_
    · intro e he hpresent
      have hmember : e.member ∈ c.members := by
        rw [← map_sizeEntries]
        exact List.mem_map_of_mem he
      rw [hsent e he hpresent]
      exact e.member.codec_delivers (h e.member hmember)
    · rintro rfl
      have hflag : always .isValidDirectoryExist ∈
          keyValidityDirectoryCollectpopVictimset.sizeEntries := by
        simp [sizeEntries]
      exact hsent _ hflag rfl
    · intro member hall
      refine (if_neg ?_).symm
      rintro ⟨e, he, hpresent, heq⟩
      exact hall e he hpresent heq
  · intro member hmem
    rw [← map_sizeEntries] at hmem
    obtain ⟨e, he, rfl⟩ := List.mem_map.1 hmem
    by_cases hthere : Sent e.member
    · exact if_pos hthere
    · -- the member is absent at both ends
      have habsent : e.present (c.construct body) = false := by
        rw [← Bool.not_eq_true]
        exact fun hpresent => hthere ⟨e, he, hpresent, rfl⟩
      rw [absent_member he habsent, Member.received_fresh]
      exact if_neg hthere

end BaseClass

/-! ## Messages -/

/-- A message; `leafClass` is the class of the object, named by its message type. -/
structure MessageBase (isTrackEvent : Bool) where
  leafClass : MessageType
  messageType : MessageType
  sourceIndex : UInt32
  sourceAddr : NetworkAddr
  bandwidthUsage : BandwidthUsage
  eventList : EventList isTrackEvent
  extraCommonMsghdr : ExtraCommonMsghdr
  body : Body
  isResponse : Bool

def messageTypeCodec : Codec MessageType :=
  Codec.bigEndian 4 MessageType.number MessageType.ofNumber

namespace MessageBase

section Functions

variable {isTrackEvent : Bool}

/-- The constructors. Only some of the classes take bandwidth usage and events; the others start
with none. -/
def create (leafClass : MessageType) (sourceIndex : UInt32) (sourceAddr : NetworkAddr)
    (bandwidthUsage : BandwidthUsage) (eventList : EventList isTrackEvent)
    (extraCommonMsghdr : ExtraCommonMsghdr) (body : Body) : MessageBase isTrackEvent where
  leafClass := leafClass
  messageType := leafClass
  sourceIndex := sourceIndex
  sourceAddr := sourceAddr
  bandwidthUsage := if leafClass.takesBandwidthUsage then bandwidthUsage else BandwidthUsage.zero
  eventList := if leafClass.takesBandwidthUsage then eventList else emptyEventList isTrackEvent
  extraCommonMsghdr := extraCommonMsghdr
  body := leafClass.baseClass.construct body
  isResponse := leafClass.isDataResponse || leafClass.isControlResponse

/-- Bandwidth usage and events, which only responses have. -/
def responseCodec (isTrackEvent : Bool) : Codec (BandwidthUsage × EventList isTrackEvent) :=
  BandwidthUsage.codec.pair (eventListCodec isTrackEvent)

def getCommonMsghdrSize (m : MessageBase isTrackEvent) : Nat :=
  if m.isResponse then
    messageTypeCodec.size m.messageType + Codec.bigEndian32.size m.sourceIndex +
      networkAddrCodec.size m.sourceAddr +
      (responseCodec isTrackEvent).size (m.bandwidthUsage, m.eventList) +
      extraCommonMsghdrCodec.size m.extraCommonMsghdr
  else
    messageTypeCodec.size m.messageType + Codec.bigEndian32.size m.sourceIndex +
      networkAddrCodec.size m.sourceAddr + extraCommonMsghdrCodec.size m.extraCommonMsghdr

def getMsgPayloadSize (m : MessageBase isTrackEvent) : Nat :=
  m.getCommonMsghdrSize + m.leafClass.baseClass.codec.size m.body

def serializeTo {S : Type} (sink : Sink S) (m : MessageBase isTrackEvent) :
    StateT S Option Unit := do
  messageTypeCodec.write sink m.messageType
  Codec.bigEndian32.write sink m.sourceIndex
  networkAddrCodec.write sink m.sourceAddr
  onlyIf (m.isResponse = true)
    ((responseCodec isTrackEvent).write sink (m.bandwidthUsage, m.eventList))
  extraCommonMsghdrCodec.write sink m.extraCommonMsghdr
  m.leafClass.baseClass.codec.write sink m.body

/-- Read an object of the given class. -/
def deserializeFrom {S : Type} (source : Source S) (leafClass : MessageType) :
    StateT S Option (MessageBase isTrackEvent) := do
  let messageType ← messageTypeCodec.read source
  let sourceIndex ← Codec.bigEndian32.read source
  let sourceAddr ← networkAddrCodec.read source
  let response ← optional ((messageType.isDataResponse || messageType.isControlResponse) = true)
    ((responseCodec isTrackEvent).read source) (BandwidthUsage.zero, emptyEventList isTrackEvent)
  let extraCommonMsghdr ← extraCommonMsghdrCodec.read source
  let body ← leafClass.baseClass.codec.read source
  return {
    leafClass := leafClass
    messageType := messageType
    sourceIndex := sourceIndex
    sourceAddr := sourceAddr
    bandwidthUsage := response.1
    eventList := response.2
    extraCommonMsghdr := extraCommonMsghdr
    body := body
    isResponse := messageType.isDataResponse || messageType.isControlResponse }

/-- Write a message to a payload from its start; the answer has the size of what was written. -/
def serialize (m : MessageBase isTrackEvent) (msgPayload : DynamicArray) :
    Option (DynamicArray × Nat) := do
  let written ← m.serializeTo DynamicArray.sink (msgPayload, 0)
  return written.2

theorem start_within (msgPayload : DynamicArray) : 0 ≤ msgPayload.bytes.length := Nat.zero_le _

/-- Read an object of the given class from the start of a payload; the answer has the size of what
was read. -/
def deserialize (leafClass : MessageType) (msgPayload : DynamicArray) :
    Option (MessageBase isTrackEvent × Nat) := do
  let read ← deserializeFrom DynamicArray.source leafClass ⟨msgPayload, 0, start_within msgPayload⟩
  return (read.1, read.2.size)

def deserializeMessageTypeFromMsgPayload (msgPayload : DynamicArray) : Option MessageType := do
  let read ← messageTypeCodec.read DynamicArray.source ⟨msgPayload, 0, start_within msgPayload⟩
  return read.1

def getRequestFromMsgPayload (msgPayload : DynamicArray) : Option (MessageBase isTrackEvent) := do
  let messageType ← deserializeMessageTypeFromMsgPayload msgPayload
  require (messageType ∈ MessageType.requestCases)
  let read ← deserialize messageType msgPayload
  require (messageType ∉ MessageType.specialCases →
    (read.1.messageType.isDataRequest || read.1.messageType.isControlRequest) = true)
  return read.1

def getResponseFromMsgPayload (msgPayload : DynamicArray) : Option (MessageBase isTrackEvent) := do
  let messageType ← deserializeMessageTypeFromMsgPayload msgPayload
  require (messageType ∈ MessageType.responseCases)
  let read ← deserialize messageType msgPayload
  require ((read.1.messageType.isDataResponse || read.1.messageType.isControlResponse) = true)
  return read.1

end Functions

end MessageBase

end Covered.Message
