import Covered.Cache.CacheWrapper
import Covered.Lib.RecordStream
import Covered.Victim.WireRoundTrip

/-!
# Components of messages

What the fields of a message are made of, with the size, the serializer and the deserializer of
each. A component has a codec and one lemma that says what a receiver gets. Numbers whose width the
source fixes have that width; of the numbers that are natural ones here a condition says that they
fit.

An address is sent as four bytes, so only a dotted quad can be sent. Event lists are sent if events
are tracked, which both ends know from their configuration. The values of an object that is not
tracked are not sent, and no code reads them. The content of a value is not sent, since no more than
`maxValueContentSize` bytes of it are, and that is zero.
-/

set_option autoImplicit false

namespace Covered.Message

open Cache Common Cooperation Lib.ByteStream Lib.RecordStream Lib.SingleFloat Victim List Codec

/-! ## Keys, directory infos and syncsets -/

def keyCodec : Codec Key := ⟨Key.getKeyPayloadSize, Key.serializeTo, Key.deserializeFrom⟩

def directoryInfoCodec : Codec DirectoryInfo :=
  ⟨DirectoryInfo.getDirectoryInfoPayloadSize, DirectoryInfo.serializeTo,
    DirectoryInfo.deserializeFrom⟩

def victimSyncsetCodec : Codec VictimSyncset :=
  ⟨VictimSyncset.getVictimSyncsetPayloadSize, VictimSyncset.serializeTo,
    VictimSyncset.deserializeFrom⟩

theorem delivers_key {key : Key} (h : key.getKeyPayloadSize < 2 ^ 32) :
    keyCodec.Delivers key key := by
  refine ⟨key.wire, key.length_wire, ?_, ?_⟩
  · intro S sink
    exact key.emits sink
  · intro S source
    exact Key.parses source h

theorem delivers_directoryInfo {dirinfo : DirectoryInfo} (h : dirinfo.targetEdgeIdx < 2 ^ 32) :
    directoryInfoCodec.Delivers dirinfo dirinfo := by
  have hlt : dirinfo.targetEdgeIdx < 256 ^ 4 := h
  refine ⟨bigEndian 4 dirinfo.targetEdgeIdx, length_bigEndian .., ?_, ?_⟩
  · intro S sink
    exact emits_put sink _
  · intro S source
    exact (parses_getBigEndian source hlt).map DirectoryInfo.mk

theorem delivers_victimSyncset {syncset : VictimSyncset} (h : syncset.InRange) :
    victimSyncsetCodec.Delivers syncset syncset.received := by
  refine ⟨syncset.wire, syncset.length_wire, ?_, ?_⟩
  · intro S sink
    exact syncset.emits sink
  · intro S source
    exact VictimSyncset.parses source h

/-! ## Values -/

/-- `MAX_VALUE_CONTENT_SIZE`. -/
def maxValueContentSize : Nat := 0

def getValuesizeForNetwork (valuesize : Nat) : Nat :=
  if valuesize > maxValueContentSize then maxValueContentSize else valuesize

/-- Value content of the given size. -/
def generateValuestr (valuesize : Nat) : List UInt8 := List.replicate valuesize 48

/-- The value with the given members; a deleted value has size zero. -/
def valueOfMembers (isDeleted : Bool) (valuesize : Nat) : Option Value :=
  if h : isDeleted = true → valuesize = 0 then some ⟨isDeleted, valuesize, h⟩ else none

def valuesizeCodec : Codec Nat := Codec.bigEndian 4 id some

/-- The reader skips the content. -/
def valueCodec : Codec Value where
  size value :=
    Codec.bool.size value.isDeleted + valuesizeCodec.size value.valuesize +
      getValuesizeForNetwork value.valuesize
  write sink value := do
    Codec.bool.write sink value.isDeleted
    valuesizeCodec.write sink value.valuesize
    sink.put (generateValuestr (getValuesizeForNetwork value.valuesize))
  read source := do
    let isDeleted ← Codec.bool.read source
    let valuesize ← valuesizeCodec.read source
    let _ ← source.get (getValuesizeForNetwork valuesize)
    ofOption (valueOfMembers isDeleted valuesize)

theorem delivers_value {value : Value} (h : value.valuesize < 2 ^ 32) :
    valueCodec.Delivers value value := by
  obtain ⟨flag, hflag, hflagEmits, hflagParses⟩ := delivers_bool value.isDeleted
  have hsize : valuesizeCodec.Delivers value.valuesize value.valuesize :=
    delivers_bigEndian h rfl
  obtain ⟨number, hnumber, hnumberEmits, hnumberParses⟩ := hsize
  have hcontent : (generateValuestr (getValuesizeForNetwork value.valuesize)).length =
      getValuesizeForNetwork value.valuesize := length_replicate ..
  refine ⟨flag ++ (number ++ generateValuestr (getValuesizeForNetwork value.valuesize)), ?_, ?_, ?_⟩
  · rw [length_append, length_append, hflag, hnumber, hcontent, ← Nat.add_assoc]
    rfl
  · intro S sink
    exact (hflagEmits sink).andThen ((hnumberEmits sink).andThen (emits_put sink _))
  · intro S source
    refine (hflagParses source).andThen ((hnumberParses source).andThen ?_)
    exact (parses_get source hcontent).thenOption (dif_pos value.size_of_deleted)

/-! ## Addresses -/

structure NetworkAddr where
  ipstr : List Char
  port : UInt16
  isValid : Bool
deriving DecidableEq

/-- `inet_ntop`: the decimal numbers of the bytes with dots between them. -/
def inetNtop (bytes : List UInt8) : List Char :=
  List.intercalate ['.'] (bytes.map fun byte => Nat.toDigits 10 byte.toNat)

/-- The byte with the given decimal number. -/
def parseOctet (digits : List Char) : Option UInt8 :=
  ((List.range 256).find? fun n => Nat.toDigits 10 n == digits).map UInt8.ofNat

/-- `inet_pton`: the four bytes of a dotted quad. -/
def inetPton (ipstr : List Char) : Option (List UInt8) :=
  match ipstr.splitOn '.' with
  | [a, b, c, d] => [a, b, c, d].mapM parseOctet
  | _ => none

/-- The bytes of the address. What is sent for an address that is no dotted quad is undefined. -/
def ipstrCodec : Codec (List Char) where
  size _ := 4
  write sink ipstr := ofOption (inetPton ipstr) >>= sink.put
  read source := source.get 4 >>= fun bytes => pure (inetNtop bytes)

/-- The address that was read is valid. -/
def networkAddrCodec : Codec NetworkAddr :=
  (ipstrCodec.pair Codec.bigEndian16).convert (fun addr => (addr.ipstr, addr.port))
    fun addr => some ⟨addr.1, addr.2, true⟩

/-- The address of a dotted quad. -/
def NetworkAddr.IsDottedQuad (addr : NetworkAddr) : Prop :=
  ∃ a b c d : UInt8, addr.ipstr = inetNtop [a, b, c, d]

theorem digits_octet : ∀ n < 256, '.' ∉ Nat.toDigits 10 n := by
  decide +kernel

theorem parseOctet_spec (byte : UInt8) :
    ∃ byte', parseOctet (Nat.toDigits 10 byte.toNat) = some byte' ∧
      Nat.toDigits 10 byte'.toNat = Nat.toDigits 10 byte.toNat := by
  have hfound : ((range 256).find? fun n =>
      Nat.toDigits 10 n == Nat.toDigits 10 byte.toNat).isSome := by
    rw [find?_isSome]
    exact ⟨byte.toNat, mem_range.2 byte.toNat_lt, beq_self_eq_true _⟩
  obtain ⟨n, hn⟩ := Option.isSome_iff_exists.1 hfound
  have hlt : n < 256 := mem_range.1 (mem_of_find?_eq_some hn)
  have hdigits := find?_some hn
  rw [beq_iff_eq] at hdigits
  refine ⟨UInt8.ofNat n, ?_, ?_⟩
  · rw [parseOctet, hn, Option.map_some]
  · rw [UInt8.toNat_ofNat_of_lt' hlt, hdigits]

theorem inetPton_inetNtop (a b c d : UInt8) :
    ∃ bytes, inetPton (inetNtop [a, b, c, d]) = some bytes ∧ bytes.length = 4 ∧
      inetNtop bytes = inetNtop [a, b, c, d] := by
  have hsplit : (inetNtop [a, b, c, d]).splitOn '.' =
      [a, b, c, d].map fun byte => Nat.toDigits 10 byte.toNat := by
    refine splitOn_intercalate '.' ?_ nofun
    intro digits hdigits
    obtain ⟨byte, -, rfl⟩ := mem_map.1 hdigits
    exact digits_octet byte.toNat byte.toNat_lt
  obtain ⟨a', ha, hadigits⟩ := parseOctet_spec a
  obtain ⟨b', hb, hbdigits⟩ := parseOctet_spec b
  obtain ⟨c', hc, hcdigits⟩ := parseOctet_spec c
  obtain ⟨d', hd, hddigits⟩ := parseOctet_spec d
  refine ⟨[a', b', c', d'], ?_, rfl, ?_⟩
  · rw [inetPton, hsplit]
    simp only [map_cons, map_nil, mapM_cons, mapM_nil, ha, hb, hc, hd,
      Option.pure_def, Option.bind_eq_bind, Option.bind_some]
  · simp only [inetNtop, map_cons, map_nil, hadigits, hbdigits, hcdigits, hddigits]

theorem delivers_networkAddr {addr : NetworkAddr} (h : addr.IsDottedQuad) :
    networkAddrCodec.Delivers addr ⟨addr.ipstr, addr.port, true⟩ := by
  obtain ⟨a, b, c, d, hquad⟩ := h
  obtain ⟨bytes, hbytes, hlength, hback⟩ := inetPton_inetNtop a b c d
  rw [← hquad] at hbytes hback
  have hipstr : ipstrCodec.Delivers addr.ipstr addr.ipstr := by
    refine ⟨bytes, hlength, ?_, ?_⟩
    · intro S sink
      exact Emits.afterOption hbytes (emits_put sink bytes)
    · intro S source
      have hread := (parses_get source hlength).map inetNtop
      rw [hback] at hread
      exact hread
  apply Codec.Delivers.convert
  · exact hipstr.pair (delivers_bigEndian16 addr.port)
  · rfl

/-! ## Events -/

structure Event where
  eventName : List UInt8
  eventLatencyUs : UInt32
deriving DecidableEq

def eventCodec : Codec Event :=
  ((Codec.list Codec.bigEndian32 Codec.uint8).pair Codec.bigEndian32).convert
    (fun event => (event.eventName, event.eventLatencyUs)) fun event => some ⟨event.1, event.2⟩

/-- A list of events, which is empty unless events are tracked. -/
structure EventList (isTrackEvent : Bool) where
  events : List Event
  empty : isTrackEvent = false → events = []

/-- The number of events and of the bytes of each name are 32-bit numbers. -/
structure EventList.InRange {isTrackEvent : Bool} (eventList : EventList isTrackEvent) : Prop where
  events : eventList.events.length < 2 ^ 32
  names : ∀ event ∈ eventList.events, event.eventName.length < 2 ^ 32

def emptyEventList (isTrackEvent : Bool) : EventList isTrackEvent := ⟨[], fun _ => rfl⟩

def eventListOfEvents (isTrackEvent : Bool) (events : List Event) :
    Option (EventList isTrackEvent) :=
  if h : isTrackEvent = false → events = [] then some ⟨events, h⟩ else none

def eventListCodec (isTrackEvent : Bool) : Codec (EventList isTrackEvent) where
  size eventList :=
    if isTrackEvent then (Codec.list Codec.bigEndian32 eventCodec).size eventList.events else 0
  write sink eventList :=
    onlyIf (isTrackEvent = true)
      ((Codec.list Codec.bigEndian32 eventCodec).write sink eventList.events)
  read source := do
    let events ← optional (isTrackEvent = true)
      ((Codec.list Codec.bigEndian32 eventCodec).read source) []
    ofOption (eventListOfEvents isTrackEvent events)

theorem delivers_event {event : Event} (h : event.eventName.length < 2 ^ 32) :
    eventCodec.Delivers event event := by
  have hname := delivers_list delivers_bigEndian32
    (fun byte _ => delivers_uint8 byte) h
  apply Codec.Delivers.convert
  · exact hname.pair (delivers_bigEndian32 event.eventLatencyUs)
  · rfl

theorem delivers_eventList {isTrackEvent : Bool} {eventList : EventList isTrackEvent}
    (h : eventList.InRange) : (eventListCodec isTrackEvent).Delivers eventList eventList := by
  obtain ⟨bytes, hlength, hemits, hparses⟩ := delivers_list delivers_bigEndian32
    (fun event hevent => delivers_event (h.names event hevent)) h.events
  have hsame : eventListOfEvents isTrackEvent
      (if isTrackEvent = true then eventList.events else []) = some eventList := by
    cases isTrackEvent with
    | true => exact dif_pos eventList.empty
    | false =>
      rw [if_neg Bool.false_ne_true, ← eventList.empty rfl]
      exact dif_pos eventList.empty
  refine ⟨if isTrackEvent = true then bytes else [], ?_, ?_, ?_⟩
  · rw [apply_ite length, hlength]
    rfl
  · intro S sink
    exact Emits.onlyIf fun _ => hemits sink
  · intro S source
    exact (Parses.optional fun _ => hparses source).thenOption hsame

/-! ## The extra header -/

structure ExtraCommonMsghdr where
  skipPropagationLatency : Bool
  isMonitored : Bool
  msgSeqnum : UInt64
deriving DecidableEq

def extraCommonMsghdrCodec : Codec ExtraCommonMsghdr :=
  (Codec.bool.pair (Codec.bool.pair Codec.uint64)).convert
    (fun header => (header.skipPropagationLatency, header.isMonitored, header.msgSeqnum))
    fun header => some ⟨header.1, header.2.1, header.2.2⟩

theorem delivers_extraCommonMsghdr (header : ExtraCommonMsghdr) :
    extraCommonMsghdrCodec.Delivers header header := by
  have hseqnum := delivers_uint64 header.msgSeqnum
  have hmonitored := (delivers_bool header.isMonitored).pair hseqnum
  apply Codec.Delivers.convert
  · exact (delivers_bool header.skipPropagationLatency).pair hmonitored
  · rfl

/-! ## Bandwidth usage -/

inductive BandwidthMember where
  | clientEdgeBandwidthBytes
  | crossEdgeControlContentDiscoveryBandwidthBytes
  | crossEdgeControlDirectoryUpdateBandwidthBytes
  | crossEdgeControlOthersBandwidthBytes
  | crossEdgeDataBandwidthBytes
  | edgeCloudBandwidthBytes
  | victimSyncsetBandwidthBytes
  | clientEdgeMsgcnt
  | crossEdgeControlContentDiscoveryMsgcnt
  | crossEdgeControlDirectoryUpdateMsgcnt
  | crossEdgeControlOthersMsgcnt
  | crossEdgeDataMsgcnt
  | edgeCloudMsgcnt
deriving DecidableEq

/-- Bytes and message counts by the kind of link. -/
abbrev BandwidthUsage := BandwidthMember → UInt64

namespace BandwidthUsage

def zero : BandwidthUsage := fun _ => 0

/-- The members in the order in which they are sent. -/
def members : List BandwidthMember :=
  [.clientEdgeBandwidthBytes, .crossEdgeControlContentDiscoveryBandwidthBytes,
    .crossEdgeControlDirectoryUpdateBandwidthBytes, .crossEdgeControlOthersBandwidthBytes,
    .crossEdgeDataBandwidthBytes, .edgeCloudBandwidthBytes, .victimSyncsetBandwidthBytes,
    .clientEdgeMsgcnt, .crossEdgeControlContentDiscoveryMsgcnt,
    .crossEdgeControlDirectoryUpdateMsgcnt, .crossEdgeControlOthersMsgcnt, .crossEdgeDataMsgcnt,
    .edgeCloudMsgcnt]

def entries : List (Entry fun _ : BandwidthMember => UInt64) := members.map always

def codec : Codec BandwidthUsage :=
  recordCodec (fun _ => Codec.uint64) entries entries entries zero

theorem delivers (usage : BandwidthUsage) : codec.Delivers usage usage := by
  apply delivers_members
  · intro member
    cases member <;> decide
  · intro member
    exact delivers_uint64 (usage member)

end BandwidthUsage

/-! ## Aggregated statistics -/

inductive StatisticsMember where
  | totalLocalHitcnt
  | totalCooperativeHitcnt
  | totalReqcnt
  | totalLocalHitbytes
  | totalCooperativeHitbytes
  | totalReqbytes
  | avgLatency
  | minLatency
  | mediumLatency
  | tail90Latency
  | tail95Latency
  | tail99Latency
  | maxLatency
  | totalReadcnt
  | totalWritecnt
  | totalCacheSizeBytes
  | totalCacheCapacityBytes
  | localhitWorkloadKeySize
  | cooperativehitWorkloadKeySize
  | globalmissWorkloadKeySize
  | totalWorkloadKeySize
  | localhitWorkloadValueSize
  | cooperativehitWorkloadValueSize
  | globalmissWorkloadValueSize
  | totalWorkloadValueSize
  | totalBandwidthUsage
deriving DecidableEq

namespace StatisticsMember

/-- The widths of the members. -/
inductive Kind where
  | uint32
  | uint64
  | double
  | bandwidthUsage

def kind : StatisticsMember → Kind
  | totalLocalHitbytes | totalCooperativeHitbytes | totalReqbytes | localhitWorkloadKeySize
  | cooperativehitWorkloadKeySize | globalmissWorkloadKeySize | totalWorkloadKeySize
  | localhitWorkloadValueSize | cooperativehitWorkloadValueSize | globalmissWorkloadValueSize
  | totalWorkloadValueSize => .double
  | totalCacheSizeBytes | totalCacheCapacityBytes => .uint64
  | totalBandwidthUsage => .bandwidthUsage
  | _ => .uint32

/-- A double is given by its bit pattern. -/
def Kind.Carrier : Kind → Type
  | .uint32 => UInt32
  | .uint64 => UInt64
  | .double => UInt64
  | .bandwidthUsage => BandwidthUsage

def Kind.zero : (kind : Kind) → kind.Carrier
  | .uint32 => (0 : UInt32)
  | .uint64 => (0 : UInt64)
  | .double => (0 : UInt64)
  | .bandwidthUsage => BandwidthUsage.zero

def Kind.codec : (kind : Kind) → Codec kind.Carrier
  | .uint32 => Codec.uint32
  | .uint64 => Codec.uint64
  | .double => Codec.uint64
  | .bandwidthUsage => BandwidthUsage.codec

theorem Kind.delivers (kind : Kind) (x : kind.Carrier) : kind.codec.Delivers x x := by
  cases kind with
  | uint32 => exact delivers_uint32 x
  | uint64 => exact delivers_uint64 x
  | double => exact delivers_uint64 x
  | bandwidthUsage => exact BandwidthUsage.delivers x

end StatisticsMember

/-- The statistics of a client, as it reports them. -/
abbrev AggregatedStatistics := (member : StatisticsMember) → member.kind.Carrier

namespace AggregatedStatistics

def zero : AggregatedStatistics := fun member => member.kind.zero

/-- The members in the order in which they are sent. -/
def members : List StatisticsMember :=
  [.totalLocalHitcnt, .totalCooperativeHitcnt, .totalReqcnt, .totalLocalHitbytes,
    .totalCooperativeHitbytes, .totalReqbytes, .avgLatency, .minLatency, .mediumLatency,
    .tail90Latency, .tail95Latency, .tail99Latency, .maxLatency, .totalReadcnt, .totalWritecnt,
    .totalCacheSizeBytes, .totalCacheCapacityBytes, .localhitWorkloadKeySize,
    .cooperativehitWorkloadKeySize, .globalmissWorkloadKeySize, .totalWorkloadKeySize,
    .localhitWorkloadValueSize, .cooperativehitWorkloadValueSize, .globalmissWorkloadValueSize,
    .totalWorkloadValueSize, .totalBandwidthUsage]

def entries : List (Entry fun member : StatisticsMember => member.kind.Carrier) :=
    members.map always

def codec : Codec AggregatedStatistics :=
  recordCodec (fun member => member.kind.codec) entries entries entries zero

theorem delivers (statistics : AggregatedStatistics) : codec.Delivers statistics statistics := by
  apply delivers_members
  · intro member
    cases member <;> decide
  · intro member
    exact member.kind.delivers (statistics member)

end AggregatedStatistics

/-! ## Popularities, edgesets and hints -/

/-- A single-precision number. -/
def floatCodec : Codec ℚ := Codec.littleEndian 4 toBits fun bits => some (ofBits bits)

theorem delivers_float {x : ℚ} (h : IsFloat x) : floatCodec.Delivers x x := by
  refine delivers_littleEndian (toBits_lt h) ?_
  rw [ofBits_toBits h]

structure CollectedPopularity where
  isTracked : Bool
  localUncachedPopularity : ℚ
  objectSize : UInt32
deriving DecidableEq

namespace CollectedPopularity

/-- The popularity of an object that is not tracked. -/
def untracked : CollectedPopularity := ⟨false, 0, 0⟩

def codec : Codec CollectedPopularity where
  size popularity :=
    Codec.bool.size popularity.isTracked +
      if popularity.isTracked then
        floatCodec.size popularity.localUncachedPopularity +
          Codec.uint32.size popularity.objectSize
      else 0
  write sink popularity := do
    Codec.bool.write sink popularity.isTracked
    onlyIf (popularity.isTracked = true) do
      floatCodec.write sink popularity.localUncachedPopularity
      Codec.uint32.write sink popularity.objectSize
  read source := do
    let isTracked ← Codec.bool.read source
    optional (isTracked = true) (do
      let localUncachedPopularity ← floatCodec.read source
      let objectSize ← Codec.uint32.read source
      return ⟨true, localUncachedPopularity, objectSize⟩) untracked

/-- What arrives: the values are sent if the object is tracked. -/
def received (popularity : CollectedPopularity) : CollectedPopularity :=
  if popularity.isTracked = true then
    ⟨true, popularity.localUncachedPopularity, popularity.objectSize⟩
  else untracked

theorem delivers {popularity : CollectedPopularity}
    (h : IsFloat popularity.localUncachedPopularity) :
    codec.Delivers popularity popularity.received := by
  obtain ⟨flag, hflag, hflagEmits, hflagParses⟩ := delivers_bool popularity.isTracked
  obtain ⟨bits, hbits, hbitsEmits, hbitsParses⟩ := delivers_float h
  obtain ⟨size, hsize, hsizeEmits, hsizeParses⟩ := delivers_uint32 popularity.objectSize
  refine ⟨flag ++ if popularity.isTracked = true then bits ++ size else [], ?_, ?_, ?_⟩
  · rw [length_append, hflag, apply_ite length, length_append, hbits, hsize]
    rfl
  · intro S sink
    refine (hflagEmits sink).andThen (Emits.onlyIf fun _ => ?_)
    exact (hbitsEmits sink).andThen (hsizeEmits sink)
  · intro S source
    refine (hflagParses source).andThen (Parses.optional fun _ => ?_)
    refine (hbitsParses source).andThen ?_
    exact (hsizeParses source).map (CollectedPopularity.mk true _)

end CollectedPopularity

/-- A set of edges in the order of its iteration. -/
structure Edgeset where
  edges : List UInt32
  nodup : edges.Nodup

/-- Insert the edges one after the other. -/
def Edgeset.ofEdges (edges : List UInt32) : Edgeset := ⟨edges.dedup, edges.nodup_dedup⟩

def edgesetCodec : Codec Edgeset :=
  (Codec.list Codec.uint32 Codec.uint32).convert Edgeset.edges fun edges =>
    some (Edgeset.ofEdges edges)

theorem delivers_edgeset {edgeset : Edgeset} (h : edgeset.edges.length < 2 ^ 32) :
    edgesetCodec.Delivers edgeset edgeset := by
  have hedges := delivers_list delivers_uint32
    (fun edge _ => delivers_uint32 edge) h
  refine hedges.convert (congrArg some ?_)
  obtain ⟨edges, hnodup⟩ := edgeset
  simp only [Edgeset.ofEdges, hnodup.dedup]

/-- A valid hint; an invalid one is in no message. -/
structure FastPathHint where
  sumLocalUncachedPopularity : ℚ
  smallestMaxAdmissionBenefit : ℚ
deriving DecidableEq

def fastPathHintCodec : Codec FastPathHint :=
  (floatCodec.pair floatCodec).convert
    (fun hint => (hint.sumLocalUncachedPopularity, hint.smallestMaxAdmissionBenefit))
    fun hint => some ⟨hint.1, hint.2⟩

theorem delivers_fastPathHint {hint : FastPathHint}
    (hsum : IsFloat hint.sumLocalUncachedPopularity)
    (hbenefit : IsFloat hint.smallestMaxAdmissionBenefit) :
    fastPathHintCodec.Delivers hint hint := by
  apply Codec.Delivers.convert
  · exact (delivers_float hsum).pair (delivers_float hbenefit)
  · rfl

/-! ## Hitflags -/

inductive Hitflag where
  | localHit
  | cooperativeHit
  | cooperativeInvalid
  | globalMiss
deriving DecidableEq

namespace Hitflag

def number : Hitflag → Nat
  | localHit => 1
  | cooperativeHit => 2
  | cooperativeInvalid => 3
  | globalMiss => 4

def ofNumber : Nat → Option Hitflag
  | 1 => some localHit
  | 2 => some cooperativeHit
  | 3 => some cooperativeInvalid
  | 4 => some globalMiss
  | _ => none

def codec : Codec Hitflag := Codec.littleEndian 1 number ofNumber

theorem delivers (hitflag : Hitflag) : codec.Delivers hitflag hitflag := by
  cases hitflag <;> exact delivers_littleEndian (by decide) rfl

end Hitflag

end Covered.Message
