import Covered.Message.Components

/-!
# Message types and classes

Each message type has a class of its own, which derives from one of the base classes here and adds
no member. What a class has comes from long lists in the source: the members of a base class, its
three traversals, the types that are requests or responses of each kind, the classes whose
constructor takes bandwidth usage and events, and the cases of the two factories. The lists are kept
apart, and the lemmas say that they agree.
-/

set_option autoImplicit false

namespace Covered.Message

open Cache Common Cooperation Lib.RecordStream Victim

/-! ## Types -/

inductive MessageType where
  | localGetRequest
  | localPutRequest
  | localDelRequest
  | localGetResponse
  | localPutResponse
  | localDelResponse
  | globalGetRequest
  | globalPutRequest
  | globalDelRequest
  | globalGetResponse
  | globalPutResponse
  | globalDelResponse
  | redirectedGetRequest
  | redirectedGetResponse
  | initializationRequest
  | initializationResponse
  | startrunRequest
  | startrunResponse
  | switchSlotRequest
  | switchSlotResponse
  | finishWarmupRequest
  | finishWarmupResponse
  | finishrunRequest
  | finishrunResponse
  | dumpSnapshotRequest
  | dumpSnapshotResponse
  | simpleFinishrunResponse
  | updateRulesRequest
  | updateRulesResponse
  | acquireWritelockRequest
  | acquireWritelockResponse
  | directoryLookupRequest
  | directoryUpdateRequest
  | directoryLookupResponse
  | directoryUpdateResponse
  | finishBlockRequest
  | finishBlockResponse
  | invalidationRequest
  | invalidationResponse
  | releaseWritelockRequest
  | releaseWritelockResponse
  | coveredDirectoryLookupRequest
  | coveredDirectoryLookupResponse
  | coveredDirectoryUpdateRequest
  | coveredDirectoryUpdateResponse
  | coveredAcquireWritelockRequest
  | coveredAcquireWritelockResponse
  | coveredReleaseWritelockRequest
  | coveredReleaseWritelockResponse
  | coveredRedirectedGetRequest
  | coveredRedirectedGetResponse
  | coveredBgfetchRedirectedGetRequest
  | coveredBgfetchRedirectedGetResponse
  | coveredBgfetchGlobalGetRequest
  | coveredBgfetchGlobalGetResponse
  | coveredBgplacePlacementNotifyRequest
  | coveredBgplaceDirectoryUpdateRequest
  | coveredBgplaceDirectoryUpdateResponse
  | coveredVictimFetchRequest
  | coveredVictimFetchResponse
  | coveredFghybridDirectoryLookupResponse
  | coveredFghybridDirectoryEvictResponse
  | coveredFghybridReleaseWritelockResponse
  | coveredFghybridHybridFetchedRequest
  | coveredFghybridHybridFetchedResponse
  | coveredFghybridDirectoryAdmitRequest
  | coveredFghybridDirectoryAdmitResponse
  | coveredInvalidationRequest
  | coveredInvalidationResponse
  | coveredFinishBlockRequest
  | coveredFinishBlockResponse
  | coveredFastpathDirectoryLookupResponse
  | coveredMetadataUpdateRequest
  | coveredPlacementTriggerRequest
  | coveredPlacementTriggerResponse
  | coveredFghybridPlacementTriggerResponse
  | bestGuessPlacementTriggerRequest
  | bestGuessPlacementTriggerResponse
  | bestGuessDirectoryUpdateRequest
  | bestGuessDirectoryUpdateResponse
  | bestGuessBgplaceDirectoryUpdateRequest
  | bestGuessBgplaceDirectoryUpdateResponse
  | bestGuessBgplacePlacementNotifyRequest
  | bestGuessDirectoryLookupRequest
  | bestGuessDirectoryLookupResponse
  | bestGuessFinishBlockRequest
  | bestGuessFinishBlockResponse
  | bestGuessAcquireWritelockRequest
  | bestGuessAcquireWritelockResponse
  | bestGuessInvalidationRequest
  | bestGuessInvalidationResponse
  | bestGuessReleaseWritelockRequest
  | bestGuessReleaseWritelockResponse
  | bestGuessRedirectedGetRequest
  | bestGuessRedirectedGetResponse
deriving DecidableEq

namespace MessageType

/-- The types in the order of their numbers. -/
def all : List MessageType :=
  [.localGetRequest, .localPutRequest, .localDelRequest, .localGetResponse, .localPutResponse,
    .localDelResponse, .globalGetRequest, .globalPutRequest, .globalDelRequest,
    .globalGetResponse, .globalPutResponse, .globalDelResponse, .redirectedGetRequest,
    .redirectedGetResponse, .initializationRequest, .initializationResponse, .startrunRequest,
    .startrunResponse, .switchSlotRequest, .switchSlotResponse, .finishWarmupRequest,
    .finishWarmupResponse, .finishrunRequest, .finishrunResponse, .dumpSnapshotRequest,
    .dumpSnapshotResponse, .simpleFinishrunResponse, .updateRulesRequest, .updateRulesResponse,
    .acquireWritelockRequest, .acquireWritelockResponse, .directoryLookupRequest,
    .directoryUpdateRequest, .directoryLookupResponse, .directoryUpdateResponse,
    .finishBlockRequest, .finishBlockResponse, .invalidationRequest, .invalidationResponse,
    .releaseWritelockRequest, .releaseWritelockResponse, .coveredDirectoryLookupRequest,
    .coveredDirectoryLookupResponse, .coveredDirectoryUpdateRequest,
    .coveredDirectoryUpdateResponse, .coveredAcquireWritelockRequest,
    .coveredAcquireWritelockResponse, .coveredReleaseWritelockRequest,
    .coveredReleaseWritelockResponse, .coveredRedirectedGetRequest, .coveredRedirectedGetResponse,
    .coveredBgfetchRedirectedGetRequest, .coveredBgfetchRedirectedGetResponse,
    .coveredBgfetchGlobalGetRequest, .coveredBgfetchGlobalGetResponse,
    .coveredBgplacePlacementNotifyRequest, .coveredBgplaceDirectoryUpdateRequest,
    .coveredBgplaceDirectoryUpdateResponse, .coveredVictimFetchRequest,
    .coveredVictimFetchResponse, .coveredFghybridDirectoryLookupResponse,
    .coveredFghybridDirectoryEvictResponse, .coveredFghybridReleaseWritelockResponse,
    .coveredFghybridHybridFetchedRequest, .coveredFghybridHybridFetchedResponse,
    .coveredFghybridDirectoryAdmitRequest, .coveredFghybridDirectoryAdmitResponse,
    .coveredInvalidationRequest, .coveredInvalidationResponse, .coveredFinishBlockRequest,
    .coveredFinishBlockResponse, .coveredFastpathDirectoryLookupResponse,
    .coveredMetadataUpdateRequest, .coveredPlacementTriggerRequest,
    .coveredPlacementTriggerResponse, .coveredFghybridPlacementTriggerResponse,
    .bestGuessPlacementTriggerRequest, .bestGuessPlacementTriggerResponse,
    .bestGuessDirectoryUpdateRequest, .bestGuessDirectoryUpdateResponse,
    .bestGuessBgplaceDirectoryUpdateRequest, .bestGuessBgplaceDirectoryUpdateResponse,
    .bestGuessBgplacePlacementNotifyRequest, .bestGuessDirectoryLookupRequest,
    .bestGuessDirectoryLookupResponse, .bestGuessFinishBlockRequest,
    .bestGuessFinishBlockResponse, .bestGuessAcquireWritelockRequest,
    .bestGuessAcquireWritelockResponse, .bestGuessInvalidationRequest,
    .bestGuessInvalidationResponse, .bestGuessReleaseWritelockRequest,
    .bestGuessReleaseWritelockResponse, .bestGuessRedirectedGetRequest,
    .bestGuessRedirectedGetResponse]

/-- The number of a type; the first one is 1. -/
def number (t : MessageType) : Nat := all.idxOf t + 1

def ofNumber (n : Nat) : Option MessageType := if n = 0 then none else all[n - 1]?

theorem mem_all (t : MessageType) : t ∈ all := by
  cases t <;> decide

theorem ofNumber_number (t : MessageType) : ofNumber t.number = some t := by
  rw [number, ofNumber, if_neg (Nat.succ_ne_zero _), Nat.add_sub_cancel]
  exact List.getElem?_idxOf (mem_all t)

theorem number_lt (t : MessageType) : t.number < 256 ^ 4 := by
  have hlt : all.idxOf t < all.length := List.idxOf_lt_length_of_mem (mem_all t)
  have hlength : all.length = 95 := rfl
  rw [number]
  omega

/-! ## Requests and responses -/

def isLocalDataRequest (t : MessageType) : Bool :=
  decide (t ∈
    [.localGetRequest, .localPutRequest, .localDelRequest])

def isRedirectedDataRequest (t : MessageType) : Bool :=
  decide (t ∈
    [.redirectedGetRequest, .coveredRedirectedGetRequest, .coveredBgfetchRedirectedGetRequest,
      .bestGuessRedirectedGetRequest])

def isGlobalDataRequest (t : MessageType) : Bool :=
  decide (t ∈
    [.globalGetRequest, .globalPutRequest, .globalDelRequest, .coveredBgfetchGlobalGetRequest])

def isDataRequest (t : MessageType) : Bool :=
  t.isLocalDataRequest || t.isRedirectedDataRequest || t.isGlobalDataRequest

def isLocalDataResponse (t : MessageType) : Bool :=
  decide (t ∈
    [.localGetResponse, .localPutResponse, .localDelResponse])

def isRedirectedDataResponse (t : MessageType) : Bool :=
  decide (t ∈
    [.redirectedGetResponse, .coveredRedirectedGetResponse, .coveredBgfetchRedirectedGetResponse,
      .bestGuessRedirectedGetResponse])

def isGlobalDataResponse (t : MessageType) : Bool :=
  decide (t ∈
    [.globalGetResponse, .globalPutResponse, .globalDelResponse, .coveredBgfetchGlobalGetResponse])

def isDataResponse (t : MessageType) : Bool :=
  t.isLocalDataResponse || t.isRedirectedDataResponse || t.isGlobalDataResponse

def isCooperationControlRequest (t : MessageType) : Bool :=
  decide (t ∈
    [.acquireWritelockRequest, .directoryLookupRequest, .directoryUpdateRequest,
      .finishBlockRequest, .invalidationRequest, .releaseWritelockRequest,
      .coveredDirectoryLookupRequest, .coveredDirectoryUpdateRequest,
      .coveredAcquireWritelockRequest, .coveredReleaseWritelockRequest,
      .coveredBgplaceDirectoryUpdateRequest, .coveredBgplacePlacementNotifyRequest,
      .coveredVictimFetchRequest, .coveredFghybridHybridFetchedRequest,
      .coveredFghybridDirectoryAdmitRequest, .coveredInvalidationRequest,
      .coveredFinishBlockRequest, .coveredMetadataUpdateRequest,
      .bestGuessPlacementTriggerRequest, .bestGuessDirectoryUpdateRequest,
      .bestGuessBgplaceDirectoryUpdateRequest, .bestGuessBgplacePlacementNotifyRequest,
      .bestGuessDirectoryLookupRequest, .bestGuessFinishBlockRequest,
      .bestGuessAcquireWritelockRequest, .bestGuessInvalidationRequest,
      .bestGuessReleaseWritelockRequest, .coveredPlacementTriggerRequest])

def isBenchmarkControlRequest (t : MessageType) : Bool :=
  decide (t ∈
    [.initializationRequest, .startrunRequest, .switchSlotRequest, .finishWarmupRequest,
      .finishrunRequest, .dumpSnapshotRequest, .updateRulesRequest])

def isControlRequest (t : MessageType) : Bool :=
  t.isCooperationControlRequest || t.isBenchmarkControlRequest

def isCooperationControlResponse (t : MessageType) : Bool :=
  decide (t ∈
    [.acquireWritelockResponse, .directoryLookupResponse, .directoryUpdateResponse,
      .finishBlockResponse, .invalidationResponse, .releaseWritelockResponse,
      .coveredDirectoryLookupResponse, .coveredDirectoryUpdateResponse,
      .coveredAcquireWritelockResponse, .coveredReleaseWritelockResponse,
      .coveredBgplaceDirectoryUpdateResponse, .coveredVictimFetchResponse,
      .coveredFghybridDirectoryLookupResponse, .coveredFghybridDirectoryEvictResponse,
      .coveredFghybridReleaseWritelockResponse, .coveredFghybridHybridFetchedResponse,
      .coveredFghybridDirectoryAdmitResponse, .coveredInvalidationResponse,
      .coveredFinishBlockResponse, .coveredFastpathDirectoryLookupResponse,
      .bestGuessPlacementTriggerResponse, .bestGuessDirectoryUpdateResponse,
      .bestGuessBgplaceDirectoryUpdateResponse, .bestGuessDirectoryLookupResponse,
      .bestGuessFinishBlockResponse, .bestGuessAcquireWritelockResponse,
      .bestGuessInvalidationResponse, .bestGuessReleaseWritelockResponse,
      .coveredPlacementTriggerResponse, .coveredFghybridPlacementTriggerResponse])

def isBenchmarkControlResponse (t : MessageType) : Bool :=
  decide (t ∈
    [.initializationResponse, .startrunResponse, .switchSlotResponse, .finishWarmupResponse,
      .finishrunResponse, .dumpSnapshotResponse, .simpleFinishrunResponse, .updateRulesResponse])

def isControlResponse (t : MessageType) : Bool :=
  t.isCooperationControlResponse || t.isBenchmarkControlResponse

def isDirectoryLookupMessage (t : MessageType) : Bool :=
  decide (t ∈
    [.directoryLookupRequest, .directoryLookupResponse, .coveredDirectoryLookupRequest,
      .coveredDirectoryLookupResponse, .coveredFghybridDirectoryLookupResponse,
      .coveredFastpathDirectoryLookupResponse, .bestGuessDirectoryLookupRequest,
      .bestGuessDirectoryLookupResponse])

def isDirectoryUpdateMessage (t : MessageType) : Bool :=
  decide (t ∈
    [.directoryUpdateRequest, .directoryUpdateResponse, .coveredDirectoryUpdateRequest,
      .coveredDirectoryUpdateResponse, .coveredBgplaceDirectoryUpdateRequest,
      .coveredBgplaceDirectoryUpdateResponse, .coveredFghybridDirectoryEvictResponse,
      .coveredFghybridDirectoryAdmitRequest, .coveredFghybridDirectoryAdmitResponse,
      .bestGuessDirectoryUpdateRequest, .bestGuessDirectoryUpdateResponse,
      .bestGuessBgplaceDirectoryUpdateRequest, .bestGuessBgplaceDirectoryUpdateResponse])

/-- The class takes bandwidth usage and events in its constructor. -/
def takesBandwidthUsage (t : MessageType) : Bool :=
  decide (t ∈
    [.localGetResponse, .localPutResponse, .localDelResponse, .globalGetResponse,
      .globalPutResponse, .globalDelResponse, .redirectedGetResponse, .acquireWritelockResponse,
      .directoryLookupResponse, .directoryUpdateResponse, .finishBlockResponse,
      .invalidationResponse, .releaseWritelockResponse, .coveredDirectoryLookupResponse,
      .coveredDirectoryUpdateResponse, .coveredAcquireWritelockResponse,
      .coveredReleaseWritelockResponse, .coveredRedirectedGetResponse,
      .coveredBgfetchRedirectedGetResponse, .coveredBgfetchGlobalGetResponse,
      .coveredBgplaceDirectoryUpdateResponse, .coveredVictimFetchResponse,
      .coveredFghybridDirectoryLookupResponse, .coveredFghybridDirectoryEvictResponse,
      .coveredFghybridReleaseWritelockResponse, .coveredFghybridHybridFetchedResponse,
      .coveredFghybridDirectoryAdmitResponse, .coveredInvalidationResponse,
      .coveredFinishBlockResponse, .coveredFastpathDirectoryLookupResponse,
      .coveredPlacementTriggerResponse, .coveredFghybridPlacementTriggerResponse,
      .bestGuessPlacementTriggerResponse, .bestGuessDirectoryUpdateResponse,
      .bestGuessBgplaceDirectoryUpdateResponse, .bestGuessDirectoryLookupResponse,
      .bestGuessFinishBlockResponse, .bestGuessAcquireWritelockResponse,
      .bestGuessInvalidationResponse, .bestGuessReleaseWritelockResponse,
      .bestGuessRedirectedGetResponse])

/-- The cases of the factory for requests. -/
def requestCases : List MessageType :=
  [.localGetRequest, .localPutRequest, .localDelRequest, .globalGetRequest, .globalPutRequest,
    .globalDelRequest, .redirectedGetRequest, .initializationRequest, .startrunRequest,
    .switchSlotRequest, .finishWarmupRequest, .finishrunRequest, .dumpSnapshotRequest,
    .updateRulesRequest, .acquireWritelockRequest, .directoryLookupRequest,
    .directoryUpdateRequest, .finishBlockRequest, .invalidationRequest, .releaseWritelockRequest,
    .coveredDirectoryLookupRequest, .coveredDirectoryUpdateRequest,
    .coveredAcquireWritelockRequest, .coveredReleaseWritelockRequest,
    .coveredRedirectedGetRequest, .coveredBgfetchRedirectedGetRequest,
    .coveredBgfetchRedirectedGetResponse, .coveredBgfetchGlobalGetRequest,
    .coveredBgfetchGlobalGetResponse, .coveredBgplacePlacementNotifyRequest,
    .coveredBgplaceDirectoryUpdateRequest, .coveredVictimFetchRequest,
    .coveredFghybridHybridFetchedRequest, .coveredFghybridDirectoryAdmitRequest,
    .coveredInvalidationRequest, .coveredFinishBlockRequest, .coveredMetadataUpdateRequest,
    .coveredPlacementTriggerRequest, .bestGuessPlacementTriggerRequest,
    .bestGuessDirectoryUpdateRequest, .bestGuessBgplaceDirectoryUpdateRequest,
    .bestGuessBgplacePlacementNotifyRequest, .bestGuessDirectoryLookupRequest,
    .bestGuessFinishBlockRequest, .bestGuessAcquireWritelockRequest,
    .bestGuessInvalidationRequest, .bestGuessReleaseWritelockRequest,
    .bestGuessRedirectedGetRequest]

/-- The responses that the factory for requests takes without a check. -/
def specialCases : List MessageType :=
  [.coveredBgfetchRedirectedGetResponse, .coveredBgfetchGlobalGetResponse]

/-- The cases of the factory for responses. -/
def responseCases : List MessageType :=
  [.localGetResponse, .localPutResponse, .localDelResponse, .globalGetResponse,
    .globalPutResponse, .globalDelResponse, .redirectedGetResponse, .initializationResponse,
    .startrunResponse, .switchSlotResponse, .finishWarmupResponse, .finishrunResponse,
    .dumpSnapshotResponse, .simpleFinishrunResponse, .updateRulesResponse,
    .acquireWritelockResponse, .directoryLookupResponse, .directoryUpdateResponse,
    .finishBlockResponse, .invalidationResponse, .releaseWritelockResponse,
    .coveredDirectoryLookupResponse, .coveredDirectoryUpdateResponse,
    .coveredAcquireWritelockResponse, .coveredReleaseWritelockResponse,
    .coveredRedirectedGetResponse, .coveredBgfetchRedirectedGetResponse,
    .coveredBgfetchGlobalGetResponse, .coveredBgplaceDirectoryUpdateResponse,
    .coveredVictimFetchResponse, .coveredFghybridDirectoryLookupResponse,
    .coveredFghybridDirectoryEvictResponse, .coveredFghybridReleaseWritelockResponse,
    .coveredFghybridHybridFetchedResponse, .coveredFghybridDirectoryAdmitResponse,
    .coveredInvalidationResponse, .coveredFinishBlockResponse,
    .coveredFastpathDirectoryLookupResponse, .coveredPlacementTriggerResponse,
    .coveredFghybridPlacementTriggerResponse, .bestGuessPlacementTriggerResponse,
    .bestGuessDirectoryUpdateResponse, .bestGuessBgplaceDirectoryUpdateResponse,
    .bestGuessDirectoryLookupResponse, .bestGuessFinishBlockResponse,
    .bestGuessAcquireWritelockResponse, .bestGuessInvalidationResponse,
    .bestGuessReleaseWritelockResponse, .bestGuessRedirectedGetResponse]

/-- The type is one of a request or one of a response. -/
theorem request_iff_not_response (t : MessageType) :
    (t.isDataRequest || t.isControlRequest) = !(t.isDataResponse || t.isControlResponse) := by
  cases t <;> decide

theorem mem_requestCases (t : MessageType) :
    (t.isDataRequest || t.isControlRequest) = true → t ∈ requestCases := by
  cases t <;> decide

theorem mem_responseCases (t : MessageType) :
    (t.isDataResponse || t.isControlResponse) = true → t ∈ responseCases := by
  cases t <;> decide

/-- Only a response takes bandwidth usage and events. -/
theorem response_of_takesBandwidthUsage (t : MessageType) :
    t.takesBandwidthUsage = true → (t.isDataResponse || t.isControlResponse) = true := by
  cases t <;> decide

end MessageType

/-! ## Members -/

inductive Member where
  | key
  | value
  | hitflag
  | cacheSizeBytes
  | cacheCapacityBytes
  | byte
  | firstByte
  | secondByte
  | unsignedInteger
  | isBeingWritten
  | isValidDirectoryExist
  | directoryInfo
  | collectedPopularity
  | victimSyncset
  | victimFetchset
  | edgeset
  | fastPathHint
  | syncinfo
  | placeinfo
  | aggregatedStatistics
  | firstAggregatedStatistics
  | secondAggregatedStatistics
deriving DecidableEq

structure BestGuessSyncinfo where
  vtime : UInt64
deriving DecidableEq

structure BestGuessPlaceinfo where
  placementEdgeIdx : UInt32
deriving DecidableEq

namespace Member

def Carrier : Member → Type
  | .key => Key
  | .value => Value
  | .hitflag => Hitflag
  | .cacheSizeBytes => UInt64
  | .cacheCapacityBytes => UInt64
  | .byte => UInt8
  | .firstByte => UInt8
  | .secondByte => UInt8
  | .unsignedInteger => UInt32
  | .isBeingWritten => Bool
  | .isValidDirectoryExist => Bool
  | .directoryInfo => DirectoryInfo
  | .collectedPopularity => CollectedPopularity
  | .victimSyncset => VictimSyncset
  | .victimFetchset => VictimSyncset
  | .edgeset => Edgeset
  | .fastPathHint => FastPathHint
  | .syncinfo => BestGuessSyncinfo
  | .placeinfo => BestGuessPlaceinfo
  | .aggregatedStatistics => AggregatedStatistics
  | .firstAggregatedStatistics => AggregatedStatistics
  | .secondAggregatedStatistics => AggregatedStatistics

/-- The size, the serializer and the deserializer of a member. -/
def codec : (member : Member) → Codec member.Carrier
  | .key => keyCodec
  | .value => valueCodec
  | .hitflag => Hitflag.codec
  | .cacheSizeBytes => Codec.uint64
  | .cacheCapacityBytes => Codec.uint64
  | .byte => Codec.uint8
  | .firstByte => Codec.uint8
  | .secondByte => Codec.uint8
  | .unsignedInteger => Codec.bigEndian32
  | .isBeingWritten => Codec.bool
  | .isValidDirectoryExist => Codec.bool
  | .directoryInfo => directoryInfoCodec
  | .collectedPopularity => CollectedPopularity.codec
  | .victimSyncset => victimSyncsetCodec
  | .victimFetchset => victimSyncsetCodec
  | .edgeset => edgesetCodec
  | .fastPathHint => fastPathHintCodec
  | .syncinfo => Codec.uint64.convert BestGuessSyncinfo.vtime fun vtime => some ⟨vtime⟩
  | .placeinfo =>
    Codec.uint32.convert BestGuessPlaceinfo.placementEdgeIdx fun edgeIdx => some ⟨edgeIdx⟩
  | .aggregatedStatistics => AggregatedStatistics.codec
  | .firstAggregatedStatistics => AggregatedStatistics.codec
  | .secondAggregatedStatistics => AggregatedStatistics.codec

/-- A member before it is read. -/
def fresh : (member : Member) → member.Carrier
  | .key => (⟨[]⟩ : Key)
  | .value => deletedValue
  | .hitflag => Hitflag.globalMiss
  | .cacheSizeBytes => (0 : UInt64)
  | .cacheCapacityBytes => (0 : UInt64)
  | .byte => (0 : UInt8)
  | .firstByte => (0 : UInt8)
  | .secondByte => (0 : UInt8)
  | .unsignedInteger => (0 : UInt32)
  | .isBeingWritten => false
  | .isValidDirectoryExist => false
  | .directoryInfo => (⟨0⟩ : DirectoryInfo)
  | .collectedPopularity => CollectedPopularity.untracked
  | .victimSyncset => VictimSyncset.createEmpty 0 false
  | .victimFetchset => VictimSyncset.createEmpty 0 false
  | .edgeset => Edgeset.ofEdges []
  | .fastPathHint => (⟨0, 0⟩ : FastPathHint)
  | .syncinfo => (⟨0⟩ : BestGuessSyncinfo)
  | .placeinfo => (⟨0⟩ : BestGuessPlaceinfo)
  | .aggregatedStatistics => AggregatedStatistics.zero
  | .firstAggregatedStatistics => AggregatedStatistics.zero
  | .secondAggregatedStatistics => AggregatedStatistics.zero

end Member

/-- The members of a message; those that its class does not have do not matter. -/
abbrev Body := (member : Member) → member.Carrier

def Body.isValidDirectoryExist (body : Body) : Bool := body .isValidDirectoryExist

/-! ## Base classes -/

inductive BaseClass where
  | key
  | keyValue
  | keyValueHitflagUtilization
  | keyHitflagUtilization
  | keyValueHitflag
  | simple
  | uint
  | uintAggstat
  | uintTwoAggstat
  | keyByte
  | keyValidityDirectory
  | keyWriteflagValidityDirectory
  | keyCollectpopVictimset
  | keyWriteflagValidityDirectoryVictimset
  | keyValidityDirectoryCollectpopVictimset
  | keyTwoByteVictimset
  | keyByteVictimset
  | keyVictimset
  | keyValueByteVictimset
  | keyVictimsetEdgeset
  | keyValueHitflagVictimsetEdgeset
  | keyEdgeset
  | keyValueEdgeset
  | singleVictimset
  | keyWriteflagValidityDirectoryVictimsetEdgeset
  | keyByteVictimsetEdgeset
  | keyValueVictimsetEdgeset
  | keyValueDirectoryVictimsetEdgeset
  | keyWriteflagValidityDirectoryVictimsetFphint
  | keyValuePlaceinfoSyncinfo
  | keyByteSyncinfo
  | keyValidityDirectorySyncinfo
  | keyValueByteSyncinfo
  | keySyncinfo
  | keyWriteflagValidityDirectorySyncinfo
deriving DecidableEq

/-- The class that the class of a message type derives from. -/
def MessageType.baseClass : MessageType → BaseClass
  | localGetRequest | localDelRequest | globalGetRequest | globalDelRequest | globalPutResponse
  | globalDelResponse | redirectedGetRequest | acquireWritelockRequest | directoryLookupRequest
  | finishBlockRequest | finishBlockResponse | invalidationRequest | invalidationResponse
  | releaseWritelockRequest | releaseWritelockResponse | coveredInvalidationRequest
  | coveredInvalidationResponse => .key
  | localPutRequest | globalPutRequest | globalGetResponse => .keyValue
  | localGetResponse => .keyValueHitflagUtilization
  | localPutResponse | localDelResponse => .keyHitflagUtilization
  | redirectedGetResponse => .keyValueHitflag
  | initializationRequest | initializationResponse | startrunRequest | startrunResponse
  | finishWarmupRequest | finishWarmupResponse | finishrunRequest | dumpSnapshotRequest
  | dumpSnapshotResponse | simpleFinishrunResponse | updateRulesRequest
  | updateRulesResponse => .simple
  | switchSlotRequest | coveredVictimFetchRequest => .uint
  | switchSlotResponse => .uintAggstat
  | finishrunResponse => .uintTwoAggstat
  | acquireWritelockResponse | directoryUpdateResponse | coveredMetadataUpdateRequest => .keyByte
  | directoryUpdateRequest => .keyValidityDirectory
  | directoryLookupResponse => .keyWriteflagValidityDirectory
  | coveredDirectoryLookupRequest | coveredAcquireWritelockRequest
  | coveredReleaseWritelockRequest | coveredPlacementTriggerRequest => .keyCollectpopVictimset
  | coveredDirectoryLookupResponse => .keyWriteflagValidityDirectoryVictimset
  | coveredDirectoryUpdateRequest
  | coveredBgplaceDirectoryUpdateRequest => .keyValidityDirectoryCollectpopVictimset
  | coveredDirectoryUpdateResponse | coveredBgplaceDirectoryUpdateResponse
  | coveredFghybridDirectoryAdmitResponse => .keyTwoByteVictimset
  | coveredAcquireWritelockResponse => .keyByteVictimset
  | coveredReleaseWritelockResponse | coveredRedirectedGetRequest
  | coveredFghybridHybridFetchedResponse | coveredFinishBlockRequest | coveredFinishBlockResponse
  | coveredPlacementTriggerResponse => .keyVictimset
  | coveredRedirectedGetResponse | coveredBgplacePlacementNotifyRequest => .keyValueByteVictimset
  | coveredBgfetchRedirectedGetRequest | coveredFghybridReleaseWritelockResponse
  | coveredFghybridPlacementTriggerResponse => .keyVictimsetEdgeset
  | coveredBgfetchRedirectedGetResponse => .keyValueHitflagVictimsetEdgeset
  | coveredBgfetchGlobalGetRequest => .keyEdgeset
  | coveredBgfetchGlobalGetResponse => .keyValueEdgeset
  | coveredVictimFetchResponse => .singleVictimset
  | coveredFghybridDirectoryLookupResponse => .keyWriteflagValidityDirectoryVictimsetEdgeset
  | coveredFghybridDirectoryEvictResponse => .keyByteVictimsetEdgeset
  | coveredFghybridHybridFetchedRequest => .keyValueVictimsetEdgeset
  | coveredFghybridDirectoryAdmitRequest => .keyValueDirectoryVictimsetEdgeset
  | coveredFastpathDirectoryLookupResponse => .keyWriteflagValidityDirectoryVictimsetFphint
  | bestGuessPlacementTriggerRequest => .keyValuePlaceinfoSyncinfo
  | bestGuessPlacementTriggerResponse | bestGuessDirectoryUpdateResponse
  | bestGuessBgplaceDirectoryUpdateResponse | bestGuessAcquireWritelockResponse => .keyByteSyncinfo
  | bestGuessDirectoryUpdateRequest
  | bestGuessBgplaceDirectoryUpdateRequest => .keyValidityDirectorySyncinfo
  | bestGuessBgplacePlacementNotifyRequest
  | bestGuessRedirectedGetResponse => .keyValueByteSyncinfo
  | bestGuessDirectoryLookupRequest | bestGuessFinishBlockRequest | bestGuessFinishBlockResponse
  | bestGuessAcquireWritelockRequest | bestGuessInvalidationRequest
  | bestGuessInvalidationResponse | bestGuessReleaseWritelockRequest
  | bestGuessReleaseWritelockResponse | bestGuessRedirectedGetRequest => .keySyncinfo
  | bestGuessDirectoryLookupResponse => .keyWriteflagValidityDirectorySyncinfo

namespace BaseClass

/-- The members that the class declares. -/
def members : BaseClass → List Member
  | key => [.key]
  | keyValue => [.key, .value]
  | keyValueHitflagUtilization => [.key, .value, .hitflag, .cacheSizeBytes, .cacheCapacityBytes]
  | keyHitflagUtilization => [.key, .hitflag, .cacheSizeBytes, .cacheCapacityBytes]
  | keyValueHitflag => [.key, .value, .hitflag]
  | simple => []
  | uint => [.unsignedInteger]
  | uintAggstat => [.unsignedInteger, .aggregatedStatistics]
  | uintTwoAggstat => [.unsignedInteger, .firstAggregatedStatistics, .secondAggregatedStatistics]
  | keyByte => [.key, .byte]
  | keyValidityDirectory => [.key, .isValidDirectoryExist, .directoryInfo]
  | keyWriteflagValidityDirectory => [.key, .isBeingWritten, .isValidDirectoryExist, .directoryInfo]
  | keyCollectpopVictimset => [.key, .collectedPopularity, .victimSyncset]
  | keyWriteflagValidityDirectoryVictimset =>
    [.key, .isBeingWritten, .isValidDirectoryExist, .directoryInfo, .victimSyncset]
  | keyValidityDirectoryCollectpopVictimset =>
    [.key, .isValidDirectoryExist, .directoryInfo, .collectedPopularity, .victimSyncset]
  | keyTwoByteVictimset => [.key, .firstByte, .secondByte, .victimSyncset]
  | keyByteVictimset => [.key, .byte, .victimSyncset]
  | keyVictimset => [.key, .victimSyncset]
  | keyValueByteVictimset => [.key, .value, .byte, .victimSyncset]
  | keyVictimsetEdgeset => [.key, .victimSyncset, .edgeset]
  | keyValueHitflagVictimsetEdgeset => [.key, .value, .hitflag, .victimSyncset, .edgeset]
  | keyEdgeset => [.key, .edgeset]
  | keyValueEdgeset => [.key, .value, .edgeset]
  | singleVictimset => [.victimFetchset]
  | keyWriteflagValidityDirectoryVictimsetEdgeset =>
    [.key, .isBeingWritten, .isValidDirectoryExist, .directoryInfo, .victimSyncset, .edgeset]
  | keyByteVictimsetEdgeset => [.key, .byte, .victimSyncset, .edgeset]
  | keyValueVictimsetEdgeset => [.key, .value, .victimSyncset, .edgeset]
  | keyValueDirectoryVictimsetEdgeset => [.key, .value, .directoryInfo, .victimSyncset, .edgeset]
  | keyWriteflagValidityDirectoryVictimsetFphint =>
    [.key, .isBeingWritten, .isValidDirectoryExist, .directoryInfo, .victimSyncset, .fastPathHint]
  | keyValuePlaceinfoSyncinfo => [.key, .value, .placeinfo, .syncinfo]
  | keyByteSyncinfo => [.key, .byte, .syncinfo]
  | keyValidityDirectorySyncinfo => [.key, .isValidDirectoryExist, .directoryInfo, .syncinfo]
  | keyValueByteSyncinfo => [.key, .value, .byte, .syncinfo]
  | keySyncinfo => [.key, .syncinfo]
  | keyWriteflagValidityDirectorySyncinfo =>
    [.key, .isBeingWritten, .isValidDirectoryExist, .directoryInfo, .syncinfo]

/-- A member that is there unless a valid directory exists. -/
def unlessDirectoryExists (member : Member) : Entry Member.Carrier :=
  ⟨member, fun body => !Body.isValidDirectoryExist body⟩

/-- What `getMsgPayloadSizeInternal_` counts. -/
def sizeEntries : BaseClass → List (Entry Member.Carrier)
  | key => [.key].map always
  | keyValue => [.key, .value].map always
  | keyValueHitflagUtilization =>
    [.key, .value, .hitflag, .cacheSizeBytes, .cacheCapacityBytes].map always
  | keyHitflagUtilization => [.key, .hitflag, .cacheSizeBytes, .cacheCapacityBytes].map always
  | keyValueHitflag => [.key, .value, .hitflag].map always
  | simple => []
  | uint => [.unsignedInteger].map always
  | uintAggstat => [.unsignedInteger, .aggregatedStatistics].map always
  | uintTwoAggstat =>
    [.unsignedInteger, .firstAggregatedStatistics, .secondAggregatedStatistics].map always
  | keyByte => [.key, .byte].map always
  | keyValidityDirectory => [.key, .isValidDirectoryExist, .directoryInfo].map always
  | keyWriteflagValidityDirectory =>
    [.key, .isBeingWritten, .isValidDirectoryExist, .directoryInfo].map always
  | keyCollectpopVictimset => [.key, .collectedPopularity, .victimSyncset].map always
  | keyWriteflagValidityDirectoryVictimset =>
    [.key, .isBeingWritten, .isValidDirectoryExist, .directoryInfo, .victimSyncset].map always
  | keyValidityDirectoryCollectpopVictimset =>
    [always .key, always .isValidDirectoryExist, always .directoryInfo,
      unlessDirectoryExists .collectedPopularity, always .victimSyncset]
  | keyTwoByteVictimset => [.key, .firstByte, .secondByte, .victimSyncset].map always
  | keyByteVictimset => [.key, .byte, .victimSyncset].map always
  | keyVictimset => [.key, .victimSyncset].map always
  | keyValueByteVictimset => [.key, .value, .byte, .victimSyncset].map always
  | keyVictimsetEdgeset => [.key, .victimSyncset, .edgeset].map always
  | keyValueHitflagVictimsetEdgeset => [.key, .value, .hitflag, .victimSyncset, .edgeset].map always
  | keyEdgeset => [.key, .edgeset].map always
  | keyValueEdgeset => [.key, .value, .edgeset].map always
  | singleVictimset => [.victimFetchset].map always
  | keyWriteflagValidityDirectoryVictimsetEdgeset =>
    [.key, .isBeingWritten, .isValidDirectoryExist, .directoryInfo, .victimSyncset,
      .edgeset].map always
  | keyByteVictimsetEdgeset => [.key, .byte, .victimSyncset, .edgeset].map always
  | keyValueVictimsetEdgeset => [.key, .value, .victimSyncset, .edgeset].map always
  | keyValueDirectoryVictimsetEdgeset =>
    [.key, .value, .directoryInfo, .victimSyncset, .edgeset].map always
  | keyWriteflagValidityDirectoryVictimsetFphint =>
    [.key, .isBeingWritten, .isValidDirectoryExist, .directoryInfo, .victimSyncset,
      .fastPathHint].map always
  | keyValuePlaceinfoSyncinfo => [.key, .value, .placeinfo, .syncinfo].map always
  | keyByteSyncinfo => [.key, .byte, .syncinfo].map always
  | keyValidityDirectorySyncinfo =>
    [.key, .isValidDirectoryExist, .directoryInfo, .syncinfo].map always
  | keyValueByteSyncinfo => [.key, .value, .byte, .syncinfo].map always
  | keySyncinfo => [.key, .syncinfo].map always
  | keyWriteflagValidityDirectorySyncinfo =>
    [.key, .isBeingWritten, .isValidDirectoryExist, .directoryInfo, .syncinfo].map always

/-- What `serializeInternal_` writes. -/
def writtenEntries : BaseClass → List (Entry Member.Carrier)
  | key => [.key].map always
  | keyValue => [.key, .value].map always
  | keyValueHitflagUtilization =>
    [.key, .value, .hitflag, .cacheSizeBytes, .cacheCapacityBytes].map always
  | keyHitflagUtilization => [.key, .hitflag, .cacheSizeBytes, .cacheCapacityBytes].map always
  | keyValueHitflag => [.key, .value, .hitflag].map always
  | simple => []
  | uint => [.unsignedInteger].map always
  | uintAggstat => [.unsignedInteger, .aggregatedStatistics].map always
  | uintTwoAggstat =>
    [.unsignedInteger, .firstAggregatedStatistics, .secondAggregatedStatistics].map always
  | keyByte => [.key, .byte].map always
  | keyValidityDirectory => [.key, .isValidDirectoryExist, .directoryInfo].map always
  | keyWriteflagValidityDirectory =>
    [.key, .isBeingWritten, .isValidDirectoryExist, .directoryInfo].map always
  | keyCollectpopVictimset => [.key, .collectedPopularity, .victimSyncset].map always
  | keyWriteflagValidityDirectoryVictimset =>
    [.key, .isBeingWritten, .isValidDirectoryExist, .directoryInfo, .victimSyncset].map always
  | keyValidityDirectoryCollectpopVictimset =>
    [always .key, always .isValidDirectoryExist, always .directoryInfo,
      unlessDirectoryExists .collectedPopularity, always .victimSyncset]
  | keyTwoByteVictimset => [.key, .firstByte, .secondByte, .victimSyncset].map always
  | keyByteVictimset => [.key, .byte, .victimSyncset].map always
  | keyVictimset => [.key, .victimSyncset].map always
  | keyValueByteVictimset => [.key, .value, .byte, .victimSyncset].map always
  | keyVictimsetEdgeset => [.key, .victimSyncset, .edgeset].map always
  | keyValueHitflagVictimsetEdgeset => [.key, .value, .hitflag, .victimSyncset, .edgeset].map always
  | keyEdgeset => [.key, .edgeset].map always
  | keyValueEdgeset => [.key, .value, .edgeset].map always
  | singleVictimset => [.victimFetchset].map always
  | keyWriteflagValidityDirectoryVictimsetEdgeset =>
    [.key, .isBeingWritten, .isValidDirectoryExist, .directoryInfo, .victimSyncset,
      .edgeset].map always
  | keyByteVictimsetEdgeset => [.key, .byte, .victimSyncset, .edgeset].map always
  | keyValueVictimsetEdgeset => [.key, .value, .victimSyncset, .edgeset].map always
  | keyValueDirectoryVictimsetEdgeset =>
    [.key, .value, .directoryInfo, .victimSyncset, .edgeset].map always
  | keyWriteflagValidityDirectoryVictimsetFphint =>
    [.key, .isBeingWritten, .isValidDirectoryExist, .directoryInfo, .victimSyncset,
      .fastPathHint].map always
  | keyValuePlaceinfoSyncinfo => [.key, .value, .placeinfo, .syncinfo].map always
  | keyByteSyncinfo => [.key, .byte, .syncinfo].map always
  | keyValidityDirectorySyncinfo =>
    [.key, .isValidDirectoryExist, .directoryInfo, .syncinfo].map always
  | keyValueByteSyncinfo => [.key, .value, .byte, .syncinfo].map always
  | keySyncinfo => [.key, .syncinfo].map always
  | keyWriteflagValidityDirectorySyncinfo =>
    [.key, .isBeingWritten, .isValidDirectoryExist, .directoryInfo, .syncinfo].map always

/-- What `deserializeInternal_` reads. -/
def readEntries : BaseClass → List (Entry Member.Carrier)
  | key => [.key].map always
  | keyValue => [.key, .value].map always
  | keyValueHitflagUtilization =>
    [.key, .value, .hitflag, .cacheSizeBytes, .cacheCapacityBytes].map always
  | keyHitflagUtilization => [.key, .hitflag, .cacheSizeBytes, .cacheCapacityBytes].map always
  | keyValueHitflag => [.key, .value, .hitflag].map always
  | simple => []
  | uint => [.unsignedInteger].map always
  | uintAggstat => [.unsignedInteger, .aggregatedStatistics].map always
  | uintTwoAggstat =>
    [.unsignedInteger, .firstAggregatedStatistics, .secondAggregatedStatistics].map always
  | keyByte => [.key, .byte].map always
  | keyValidityDirectory => [.key, .isValidDirectoryExist, .directoryInfo].map always
  | keyWriteflagValidityDirectory =>
    [.key, .isBeingWritten, .isValidDirectoryExist, .directoryInfo].map always
  | keyCollectpopVictimset => [.key, .collectedPopularity, .victimSyncset].map always
  | keyWriteflagValidityDirectoryVictimset =>
    [.key, .isBeingWritten, .isValidDirectoryExist, .directoryInfo, .victimSyncset].map always
  | keyValidityDirectoryCollectpopVictimset =>
    [always .key, always .isValidDirectoryExist, always .directoryInfo,
      unlessDirectoryExists .collectedPopularity, always .victimSyncset]
  | keyTwoByteVictimset => [.key, .firstByte, .secondByte, .victimSyncset].map always
  | keyByteVictimset => [.key, .byte, .victimSyncset].map always
  | keyVictimset => [.key, .victimSyncset].map always
  | keyValueByteVictimset => [.key, .value, .byte, .victimSyncset].map always
  | keyVictimsetEdgeset => [.key, .victimSyncset, .edgeset].map always
  | keyValueHitflagVictimsetEdgeset => [.key, .value, .hitflag, .victimSyncset, .edgeset].map always
  | keyEdgeset => [.key, .edgeset].map always
  | keyValueEdgeset => [.key, .value, .edgeset].map always
  | singleVictimset => [.victimFetchset].map always
  | keyWriteflagValidityDirectoryVictimsetEdgeset =>
    [.key, .isBeingWritten, .isValidDirectoryExist, .directoryInfo, .victimSyncset,
      .edgeset].map always
  | keyByteVictimsetEdgeset => [.key, .byte, .victimSyncset, .edgeset].map always
  | keyValueVictimsetEdgeset => [.key, .value, .victimSyncset, .edgeset].map always
  | keyValueDirectoryVictimsetEdgeset =>
    [.key, .value, .directoryInfo, .victimSyncset, .edgeset].map always
  | keyWriteflagValidityDirectoryVictimsetFphint =>
    [.key, .isBeingWritten, .isValidDirectoryExist, .directoryInfo, .victimSyncset,
      .fastPathHint].map always
  | keyValuePlaceinfoSyncinfo => [.key, .value, .placeinfo, .syncinfo].map always
  | keyByteSyncinfo => [.key, .byte, .syncinfo].map always
  | keyValidityDirectorySyncinfo =>
    [.key, .isValidDirectoryExist, .directoryInfo, .syncinfo].map always
  | keyValueByteSyncinfo => [.key, .value, .byte, .syncinfo].map always
  | keySyncinfo => [.key, .syncinfo].map always
  | keyWriteflagValidityDirectorySyncinfo =>
    [.key, .isBeingWritten, .isValidDirectoryExist, .directoryInfo, .syncinfo].map always

theorem writtenEntries_eq (c : BaseClass) : c.writtenEntries = c.sizeEntries := by
  cases c <;> rfl

theorem readEntries_eq (c : BaseClass) : c.readEntries = c.sizeEntries := by
  cases c <;> rfl

/-- Every member of the class is sent. -/
theorem map_sizeEntries (c : BaseClass) : c.sizeEntries.map Entry.member = c.members := by
  cases c <;> rfl

end BaseClass

end Covered.Message
