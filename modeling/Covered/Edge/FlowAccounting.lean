import Covered.Edge.MessageFlows

/-!
# Accounting of the message flows

Every function of the handlers counts what it receives over the link of its type and leaves no
message in hand; every handler passes its total on before it ends. `Closes` says this of a script,
`Balanced` of a part of one, and there is one lemma for each function.
-/

set_option autoImplicit false

namespace Covered.Edge.FlowAccounting

open Covered.Edge.BandwidthAccounting
open Covered.Edge.MessageFlows
open Covered.Message

variable {edgecnt : Nat}

/-! ## Scripts that close -/

/-- A script closes from messages of the types `hand` in hand and from totals that may hold usage
where `total` and `tmp` say so: it counts each message over the link of its type, answers with
responses only, and leaves no usage and no message behind. A response that is released uncounted is
passed over. -/
def Closes : Script edgecnt → List (List MessageType) → Bool → Bool → Prop
  | [], hand, total, tmp => hand = [] ∧ total = false ∧ tmp = false
  | .receive messageTypes :: rest, hand, total, tmp => Closes rest (messageTypes :: hand) total tmp
  | .countRequest link :: rest, hand, _, tmp =>
      (∀ t ∈ hand.headI, isRequest t = true ∧ linkOf t = link) ∧ hand ≠ [] ∧
        Closes rest hand.tail true tmp
  | .countResponse link :: rest, hand, _, tmp =>
      (∀ t ∈ hand.headI, linkOf t = link) ∧ hand ≠ [] ∧ Closes rest hand.tail true tmp
  | .releaseResponse :: rest, hand, total, tmp => Closes rest hand.tail total tmp
  | .receiveFinishBlockRequest :: rest, hand, total, tmp =>
      Closes rest ([.coveredFinishBlockRequest] :: hand) total tmp
  | .countFinishBlockRequest :: rest, hand, total, _ =>
      (∀ t ∈ hand.headI, isRequest t = true ∧ linkOf t = .crossEdge) ∧ hand ≠ [] ∧
        Closes rest hand.tail total true
  | .replyFinishBlockRequest :: rest, hand, total, _ => Closes rest hand total false
  | .updateBackgroundCounter :: rest, hand, _, tmp => Closes rest hand false tmp
  | .updateBandwidthUsage :: rest, hand, _, tmp => Closes rest hand false tmp
  | .reply messageType :: rest, hand, _, tmp =>
      isRequest messageType = false ∧ Closes rest hand false tmp
  | _ :: rest, hand, total, tmp => Closes rest hand total tmp

/-- What closes with usage in the total closes without. -/
theorem Closes.of_total {script : Script edgecnt} {hand : List (List MessageType)} {tmp : Bool}
    (h : Closes script hand true tmp) (total : Bool) : Closes script hand total tmp := by
  induction script generalizing hand tmp with
  | nil => exact absurd h.2.1 (by decide)
  | cons command rest ih =>
    cases command with
    | countRequest link => exact h
    | countResponse link => exact h
    | countFinishBlockRequest => exact ⟨h.1, h.2.1, ih h.2.2⟩
    | reply messageType => exact h
    | updateBackgroundCounter => exact h
    | updateBandwidthUsage => exact h
    | beginExchange => exact ih h
    | endExchange => exact ih h
    | send messageType dest => exact ih h
    | notify messageType dest => exact ih h
    | receive messageTypes => exact ih h
    | releaseResponse => exact ih h
    | receiveFinishBlockRequest => exact ih h
    | replyFinishBlockRequest => exact ih h
    | embedBackgroundCounterIfNotEmpty => exact ih h
    | addBackgroundEvents => exact ih h
    | pushLocalCacheAdmission => exact ih h

/-- A part of a script that leaves in hand what was there. -/
structure Balanced (script : Script edgecnt) : Prop where
  closes : ∀ {rest hand}, Closes rest hand true false →
    ∀ total, Closes (script ++ rest) hand total false

/-- A part of a script that receives and counts nothing. -/
structure Quiet (script : Script edgecnt) : Prop where
  closes : ∀ {rest hand total}, Closes rest hand total false →
    Closes (script ++ rest) hand total false

namespace Quiet

variable {script script' : Script edgecnt} {current : Fin edgecnt}

theorem balanced (h : Quiet script) : Balanced script :=
  ⟨fun hrest total => h.closes (hrest.of_total total)⟩

theorem nil : Quiet ([] : Script edgecnt) := ⟨fun h => h⟩

theorem append (h : Quiet script) (h' : Quiet script') : Quiet (script ++ script') := by
  constructor
  intro rest hand total hrest
  rw [List.append_assoc]
  exact h.closes (h'.closes hrest)

theorem map {α : Type} {l : List α} {f : α → Command edgecnt} (h : ∀ a, Quiet [f a]) :
    Quiet (l.map f) := by
  induction l with
  | nil => exact nil
  | cons a l ih => exact (h a).append ih

theorem send (t : MessageType) (dest : Thread edgecnt) : Quiet [.send t dest] := ⟨fun h => h⟩

theorem notify (t : MessageType) (dest : Thread edgecnt) : Quiet [.notify t dest] := ⟨fun h => h⟩

theorem processMetadataUpdateRequirement (requirement : MetadataUpdateRequirement edgecnt) :
    Quiet (processMetadataUpdateRequirement current requirement) := by
  cases requirement with
  | none => exact nil
  | some notifyEdgeIdx =>
    simp only [MessageFlows.processMetadataUpdateRequirement]
    split
    · exact nil
    · exact notify _ _

theorem nonblockNotifyForPlacement (edgeset : List (Fin edgecnt))
    (requirement : MetadataUpdateRequirement edgecnt) :
    Quiet (nonblockNotifyForPlacement current edgeset requirement) := by
  refine append (map fun edge => notify _ _) ?_
  split
  · exact (processMetadataUpdateRequirement requirement).append ⟨fun h => h⟩
  · exact nil

end Quiet

namespace Balanced

variable {script script' : Script edgecnt}

theorem nil : Balanced ([] : Script edgecnt) := Quiet.nil.balanced

theorem append (h : Balanced script) (h' : Balanced script') : Balanced (script ++ script') := by
  constructor
  intro rest hand hrest total
  rw [List.append_assoc]
  exact h.closes (h'.closes hrest true) total

theorem flatMap {α : Type} {l : List α} {f : α → Script edgecnt} (h : ∀ a, Balanced (f a)) :
    Balanced (l.flatMap f) := by
  induction l with
  | nil => exact nil
  | cons a l ih =>
    rw [List.flatMap_cons]
    exact (h a).append ih

theorem beginExchange : Balanced ([.beginExchange] : Script edgecnt) :=
  Quiet.balanced ⟨fun h => h⟩

theorem endExchange : Balanced ([.endExchange] : Script edgecnt) :=
  Quiet.balanced ⟨fun h => h⟩

theorem send (t : MessageType) (dest : Thread edgecnt) : Balanced [.send t dest] :=
  Quiet.balanced ⟨fun h => h⟩

theorem notify (t : MessageType) (dest : Thread edgecnt) : Balanced [.notify t dest] :=
  Quiet.balanced ⟨fun h => h⟩

theorem pushLocalCacheAdmission : Balanced ([.pushLocalCacheAdmission] : Script edgecnt) :=
  Quiet.balanced ⟨fun h => h⟩

theorem embed : Balanced ([.embedBackgroundCounterIfNotEmpty] : Script edgecnt) :=
  Quiet.balanced ⟨fun h => h⟩

/-- A response is received and counted, with other calls in between. -/
theorem receive {t : MessageType} {link : Link} (hlink : linkOf t = link)
    (h : Balanced script) : Balanced ([.receive [t]] ++ script ++ [.countResponse link]) := by
  constructor
  intro rest hand hrest total
  have hcount : Closes (.countResponse link :: rest) ([t] :: hand) true false := by
    refine ⟨?_, List.cons_ne_nil _ _, hrest⟩
    intro t' ht'
    rw [List.mem_singleton.1 ht']
    exact hlink
  rw [List.append_assoc, List.append_assoc]
  exact h.closes hcount total

theorem release (t : MessageType) :
    Balanced ([.receive [t], .releaseResponse] : Script edgecnt) :=
  Quiet.balanced ⟨fun h => h⟩

end Balanced

/-! ## The functions -/

namespace Balanced

variable {current beacon : Fin edgecnt}

theorem exchange {request response : MessageType} {dest : Thread edgecnt} {link : Link}
    (hlink : linkOf response = link) : Balanced (exchange request dest response link) := by
  have hreceive : Balanced ([.receive [response], .countResponse link] : Script edgecnt) :=
    receive hlink nil
  exact beginExchange.append ((send request dest).append (hreceive.append endExchange))

theorem parallelExchange {request response : MessageType} {dests : List (Thread edgecnt)}
    (hlink : linkOf response = .crossEdge) :
    Balanced (parallelExchange request dests response) := by
  have hreceive : Balanced ([.receive [response], .countResponse .crossEdge] : Script edgecnt) :=
    receive hlink nil
  have hsends : Balanced (dests.map (Command.send request)) :=
    (Quiet.map fun dest => Quiet.send request dest).balanced
  have hresponses := flatMap (l := dests) fun _ => hreceive
  exact ((beginExchange.append hsends).append hresponses).append endExchange

theorem parallelInvalidateCacheCopies (allDirinfo : List (Fin edgecnt)) :
    Balanced (MessageFlows.parallelInvalidateCacheCopies current allDirinfo) := by
  unfold MessageFlows.parallelInvalidateCacheCopies
  split
  · exact nil
  · exact parallelExchange (by decide)

theorem parallelNotifyEdgesToFinishBlock (blockedEdges : List (Thread edgecnt)) :
    Balanced (MessageFlows.parallelNotifyEdgesToFinishBlock blockedEdges) := by
  unfold MessageFlows.parallelNotifyEdgesToFinishBlock
  split
  · exact nil
  · exact parallelExchange (by decide)

theorem nonblockNotifyForPlacement (edgeset : List (Fin edgecnt))
    (requirement : MetadataUpdateRequirement edgecnt) :
    Balanced (nonblockNotifyForPlacement current edgeset requirement) :=
  (Quiet.nonblockNotifyForPlacement edgeset requirement).balanced

theorem placementCalculation (d : PlacementDecision edgecnt) :
    Balanced (placementCalculation current d) := by
  unfold MessageFlows.placementCalculation
  split
  · exact nil
  · exact parallelExchange (by decide)

theorem nonblockDataFetchForPlacement (senderIsBeacon : Bool) (d : PlacementDecision edgecnt) :
    Balanced (nonblockDataFetchForPlacement current senderIsBeacon d) := by
  unfold MessageFlows.nonblockDataFetchForPlacement
  split
  · exact nonblockNotifyForPlacement _ _
  · split
    · exact nil
    · split
      · exact notify _ _
      · exact nil

theorem updatePopularityAggregator (needPlacementCalculation senderIsBeacon : Bool)
    (d : PlacementDecision edgecnt) :
    Balanced (updatePopularityAggregatorForAggregatedPopularity current needPlacementCalculation
      senderIsBeacon d) := by
  unfold updatePopularityAggregatorForAggregatedPopularity
  split
  · refine (placementCalculation d).append ?_
    split
    · exact nonblockDataFetchForPlacement senderIsBeacon d
    · exact nil
  · exact nil

theorem afterDirectoryEvictionHelper (senderIsBeacon isBackground : Bool)
    (requirement : MetadataUpdateRequirement edgecnt) (d : PlacementDecision edgecnt) :
    Balanced (afterDirectoryEvictionHelper current senderIsBeacon isBackground requirement d) :=
  (Quiet.processMetadataUpdateRequirement requirement).balanced.append
    (updatePopularityAggregator _ _ d)

/-- After a calculation at the beacon itself, its placements are notified at once. -/
theorem notifyAfterCalculation (needPlacementCalculation : Bool)
    (d : PlacementDecision edgecnt) :
    Balanced (if needHybridFetching needPlacementCalculation true d then
      MessageFlows.nonblockNotifyForPlacement current d.bestPlacementEdgeset d.admissionRequirement
      else []) := by
  split
  · exact nonblockNotifyForPlacement _ _
  · exact nil

theorem admitBeaconDirectory (isBackground : Bool) :
    Balanced (admitBeaconDirectory beacon isBackground) := by
  unfold MessageFlows.admitBeaconDirectory
  split
  · exact exchange (by decide)
  · exact exchange (by decide)

theorem notifyBeacon (edgeset : List (Fin edgecnt)) :
    Balanced (notifyBeaconForPlacementAfterHybridFetch current beacon edgeset) := by
  unfold notifyBeaconForPlacementAfterHybridFetch
  split
  · exact exchange (by decide)
  · split
    · exact (exchange (by decide)).append pushLocalCacheAdmission
    · exact (exchange (by decide)).append pushLocalCacheAdmission

theorem evictionRequest (isBackground : Bool) (victim : EvictedVictim edgecnt) :
    Balanced (evictionRequest current isBackground victim) := by
  cases victim with
  | localBeacon requirement d =>
    exact (afterDirectoryEvictionHelper _ _ _ _).append (notifyAfterCalculation _ _)
  | remoteBeacon beacon =>
    simp only [MessageFlows.evictionRequest]
    split
    · exact send _ _
    · exact send _ _

theorem evictionResponse (isBackground : Bool) (r : EvictionResponse edgecnt) :
    Balanced (evictionResponse current isBackground r) := by
  unfold MessageFlows.evictionResponse
  split
  · exact receive (by decide) nil
  · split
    · refine append (receive (by decide) nil) ?_
      unfold processRspToEvictBeaconDirectory
      split
      · exact notifyBeacon _
      · exact nil
    · exact receive (by decide) nil

theorem evictForCapacity (isBackground : Bool) (batches : List (EvictionBatch edgecnt)) :
    Balanced (MessageFlows.evictForCapacity current isBackground batches) := by
  have hbatch : ∀ batch : EvictionBatch edgecnt,
      Balanced (partialParallelEvictDirectory current isBackground batch) := by
    intro batch
    exact (flatMap fun victim => evictionRequest isBackground victim).append
      (flatMap fun r => evictionResponse isBackground r)
  exact (beginExchange.append (flatMap hbatch)).append endExchange

/-! ## Workers -/

/-- The requests to finish blocking go into a total of their own, which goes into the answer. -/
theorem blockForWritesByInterruption (mismatches : Nat) :
    Balanced (blockForWritesByInterruption mismatches : Script edgecnt) := by
  constructor
  intro rest hand hrest total
  have hlink : ∀ t ∈ [MessageType.coveredFinishBlockRequest],
      isRequest t = true ∧ linkOf t = .crossEdge := by decide
  have hmatch : ∀ tmp, Closes ([.receiveFinishBlockRequest, .countFinishBlockRequest,
      .replyFinishBlockRequest] ++ rest) hand total tmp :=
    fun _ => ⟨hlink, List.cons_ne_nil _ _, hrest.of_total total⟩
  unfold MessageFlows.blockForWritesByInterruption
  -- once a request has been counted, the total for the answer holds usage
  suffices hloop : ∀ tmp, Closes ((List.replicate mismatches
      [Command.receiveFinishBlockRequest, .countFinishBlockRequest]).flatten ++
      ([.receiveFinishBlockRequest, .countFinishBlockRequest, .replyFinishBlockRequest] ++ rest))
      hand total tmp by
    rw [List.append_assoc]
    exact hloop false
  induction mismatches with
  | zero => exact hmatch
  | succ n ih =>
    intro tmp
    rw [List.replicate_succ, List.flatten_cons, List.append_assoc]
    exact ⟨hlink, List.cons_ne_nil _ _, ih true⟩

theorem redirectIfValid (validDirectory : Option (Fin edgecnt)) :
    Balanced (redirectIfValid validDirectory) := by
  cases validDirectory with
  | none => exact nil
  | some target => exact exchange (by decide)

theorem lookupRound (round : LookupRound edgecnt) :
    Balanced (lookupRound current beacon round) := by
  cases round with
  | localDirectory d isBeingWritten validDirectory =>
    refine (updatePopularityAggregator _ _ _).append ?_
    split
    · exact nil
    · exact redirectIfValid validDirectory
  | beaconDirectory response blocked validDirectory =>
    refine append (exchange ?_) ?_
    · cases response with
      | normal => rfl
      | fastpath => rfl
      | fghybrid edgeset => rfl
    · split
      · exact blockForWritesByInterruption _
      · exact redirectIfValid validDirectory
  | cachedDirectory target => exact exchange (by decide)

theorem tryToTriggerPlacementNotification (edgeset : List (Fin edgecnt))
    (requirement : MetadataUpdateRequirement edgecnt) :
    Balanced (tryToTriggerPlacementNotificationAfterHybridFetch current beacon edgeset
      requirement) := by
  unfold tryToTriggerPlacementNotificationAfterHybridFetch
  split
  · exact nonblockNotifyForPlacement _ _
  · exact notifyBeacon _

theorem tryToTriggerCachePlacementForGetrsp (placement : GetrspPlacement edgecnt) :
    Balanced (tryToTriggerCachePlacementForGetrsp current beacon placement) := by
  cases placement with
  | currentIsBeacon d =>
    exact (updatePopularityAggregator _ _ _).append (notifyAfterCalculation _ _)
  | fastPath isAdmitted =>
    simp only [MessageFlows.tryToTriggerCachePlacementForGetrsp]
    split
    · exact (admitBeaconDirectory false).append pushLocalCacheAdmission
    · exact nil
  | noPlacement => exact nil

theorem afterFetchingValue (hybrid : Option (List (Fin edgecnt)))
    (requirement : MetadataUpdateRequirement edgecnt) (placement : GetrspPlacement edgecnt) :
    Balanced (afterFetchingValue current beacon hybrid requirement placement) := by
  refine append ?_ (tryToTriggerCachePlacementForGetrsp placement)
  cases hybrid with
  | none => exact nil
  | some edgeset => exact tryToTriggerPlacementNotification edgeset requirement

theorem acquireAttempt (attempt : LockAttempt edgecnt) :
    Balanced (acquireAttempt current beacon attempt) := by
  cases attempt with
  | localWritelock allDirinfo =>
    cases allDirinfo with
    | none => exact nil
    | some copies => exact parallelInvalidateCacheCopies copies
  | beaconWritelock blocked =>
    refine append (exchange (by decide)) ?_
    split
    · exact blockForWritesByInterruption _
    · exact nil

theorem writeDataToCloud (isPut : Bool) : Balanced (writeDataToCloud isPut : Script edgecnt) := by
  unfold MessageFlows.writeDataToCloud
  split
  · exact exchange (by decide)
  · exact exchange (by decide)

theorem releaseBeaconWritelock (hybrid : Option (List (Fin edgecnt))) :
    Balanced (releaseBeaconWritelock current beacon hybrid) := by
  cases hybrid with
  | none => exact exchange (by decide)
  | some edgeset =>
    have hnotify : Balanced (notifyBeaconForPlacementAfterHybridFetch current beacon edgeset) :=
      notifyBeacon edgeset
    have hlink : linkOf .coveredFghybridReleaseWritelockResponse = .crossEdge := rfl
    have hreceive := receive hlink hnotify
    have hall := (beginExchange.append (send .coveredReleaseWritelockRequest
      (.beaconServer beacon))).append (hreceive.append endExchange)
    rw [List.append_assoc, ← List.append_assoc] at hall
    simpa [MessageFlows.releaseBeaconWritelock] using hall

theorem releaseWritelock (release : LockRelease edgecnt) :
    Balanced (MessageFlows.releaseWritelock current beacon release) := by
  cases release with
  | localWritelock d blockedEdges =>
    exact ((updatePopularityAggregator _ _ _).append (notifyAfterCalculation _ _)).append
      (parallelNotifyEdgesToFinishBlock blockedEdges)
  | beaconWritelock hybrid => exact releaseBeaconWritelock hybrid

theorem afterWritingValue (requirement : MetadataUpdateRequirement edgecnt)
    (placement : Option (WritePlacement edgecnt)) :
    Balanced (afterWritingValue current beacon requirement placement) := by
  cases placement with
  | none => exact nil
  | some placement =>
    cases placement with
    | localTrigger d =>
      refine (updatePopularityAggregator _ _ _).append ?_
      split
      · exact tryToTriggerPlacementNotification _ _
      · exact nil
    | beaconTrigger hybrid =>
      refine append ((beginExchange.append (send _ _)).append
        ((release _).append endExchange)) ?_
      cases hybrid with
      | none => exact nil
      | some edgeset => exact tryToTriggerPlacementNotification edgeset requirement

end Balanced

/-! ## Handlers -/

/-- The start of a handler of a message of type `t`, which has counted the message. -/
structure Counts (script : Script edgecnt) (t : MessageType) : Prop where
  closes : ∀ {rest}, Closes rest [] true false → Closes (script ++ rest) [[t]] false false

namespace Counts

variable {script script' : Script edgecnt} {t : MessageType} {link : Link}

theorem request (hrequest : isRequest t = true) (hlink : linkOf t = link) :
    Counts ([.countRequest link] : Script edgecnt) t := by
  constructor
  intro rest hrest
  refine ⟨?_, List.cons_ne_nil _ _, hrest⟩
  intro t' ht'
  rw [List.mem_singleton.1 ht']
  exact ⟨hrequest, hlink⟩

theorem response (hlink : linkOf t = link) :
    Counts ([.countResponse link] : Script edgecnt) t := by
  constructor
  intro rest hrest
  refine ⟨?_, List.cons_ne_nil _ _, hrest⟩
  intro t' ht'
  rw [List.mem_singleton.1 ht']
  exact hlink

theorem append (h : Counts script t) (h' : Balanced script') : Counts (script ++ script') t := by
  constructor
  intro rest hrest
  rw [List.append_assoc]
  exact h.closes (h'.closes hrest true)

end Counts

variable {t : MessageType}

theorem closes_reply (h : isRequest t = false) :
    Closes ([.reply t] : Script edgecnt) [] true false :=
  ⟨h, rfl, rfl, rfl⟩

/-- Embedding keeps the total as it is or replaces it. -/
theorem closes_embedAndReply (h : isRequest t = false) :
    Closes ([.embedBackgroundCounterIfNotEmpty, .reply t] : Script edgecnt) [] true false :=
  ⟨h, rfl, rfl, rfl⟩

theorem closes_updateCounter {script : Script edgecnt} (h : Quiet script) :
    Closes ([.updateBackgroundCounter, .addBackgroundEvents] ++ script) [] true false := by
  have hscript : Closes (script ++ []) [] false false := h.closes ⟨rfl, rfl, rfl⟩
  rw [List.append_nil] at hscript
  exact hscript

variable {current beacon : Fin edgecnt}

theorem counts_localGet (d : MessageFlows.LocalGet edgecnt) :
    Closes (processLocalGetRequest current d) [[.localGetRequest]] false false := by
  have hneighbor : Balanced (if d.isLocalCachedAndValid then []
      else fetchDataFromNeighbor current d.beacon d.rounds) := by
    split
    · exact .nil
    · exact .flatMap fun round => .lookupRound round
  have hcloud : Balanced (if d.isLocalCachedAndValid || d.isCooperativeCachedAndValid then []
      else fetchDataFromCloud : Script edgecnt) := by
    split
    · exact .nil
    · exact .exchange (by decide)
  have hcounts : Counts ([.countRequest .clientEdge] : Script edgecnt) .localGetRequest :=
    .request (by decide) (by decide)
  refine ((((hcounts.append hneighbor).append hcloud).append ?_).append
    (.afterFetchingValue _ _ _)).closes (closes_reply (by decide))
  split
  · exact .evictForCapacity _ _
  · exact .nil

theorem counts_localWrite (isPut : Bool) (d : MessageFlows.LocalWrite edgecnt) :
    Closes (processLocalWriteRequest current isPut d)
      [[if isPut then .localPutRequest else .localDelRequest]] false false := by
  have hevictions : Balanced (if isPut then MessageFlows.evictForCapacity current false d.evictions
      else []) := by
    split
    · exact .evictForCapacity _ _
    · exact .nil
  have hacquire : Balanced (MessageFlows.acquireWritelock current d.beacon d.attempts) :=
    .flatMap fun attempt => .acquireAttempt attempt
  have hcounts : Counts ([.countRequest .clientEdge] : Script edgecnt)
      (if isPut then .localPutRequest else .localDelRequest) := by
    cases isPut with
    | false => exact .request (by decide) (by decide)
    | true => exact .request (by decide) (by decide)
  have hresponse : isRequest (if isPut then .localPutResponse else .localDelResponse) = false := by
    cases isPut with
    | false => rfl
    | true => rfl
  refine (((((hcounts.append hacquire).append (.writeDataToCloud isPut)).append
    hevictions).append ?_).append (.afterWritingValue _ _)).closes (closes_reply hresponse)
  split
  · exact .releaseWritelock _
  · exact .nil

theorem counts_directoryUpdate (d : DirectoryUpdate edgecnt)
    (h : t ∈ (Handling.directoryUpdate d).messageTypes) :
    Closes (processDirectoryUpdateRequest current t d) [[t]] false false := by
  have hupdate : ∀ isBackground, Balanced (updateDirectory current isBackground d) := by
    intro isBackground
    unfold updateDirectory
    split
    · exact (Quiet.processMetadataUpdateRequirement _).balanced
    · exact .afterDirectoryEvictionHelper _ _ _ _
  have hbody : Balanced (processReqToUpdateLocalDirectory current t d) := by
    unfold processReqToUpdateLocalDirectory
    split
    · exact hupdate true
    · split
      · exact .nonblockNotifyForPlacement _ _
      · split
        · exact ((Quiet.processMetadataUpdateRequirement _).append
            (Quiet.nonblockNotifyForPlacement _ _)).balanced
        · exact hupdate false
  have hresponse : isRequest (getRspToUpdateLocalDirectory t d) = false := by
    unfold getRspToUpdateLocalDirectory
    split
    · rfl
    · split
      · rfl
      · split
        · rfl
        · split
          · rfl
          · rfl
  have hcounts : Counts ([.countRequest .crossEdge] : Script edgecnt) t := by
    have hrequest : ∀ t ∈ (Handling.directoryUpdate d).messageTypes,
        isRequest t = true ∧ linkOf t = .crossEdge := by
      simp only [Handling.messageTypes]
      decide
    exact .request (hrequest t h).1 (hrequest t h).2
  exact (hcounts.append hbody).closes (closes_embedAndReply hresponse)

/-- Every handler accounts for the message that it handles and for all that it receives. -/
theorem closes_script (handling : Handling edgecnt) (h : t ∈ handling.messageTypes) :
    Closes (handling.script current t) [[t]] false false := by
  cases handling with
  | localGet d =>
    rw [List.mem_singleton.1 h]
    exact counts_localGet d
  | localWrite d =>
    rcases List.mem_pair.1 h with rfl | rfl
    · exact counts_localWrite true d
    · exact counts_localWrite false d
  | redirectedGet =>
    rcases List.mem_pair.1 h with rfl | rfl
    · exact (Counts.request (by decide) (by decide)).closes (closes_reply (by decide))
    · exact (Counts.request (by decide) (by decide)).closes (closes_reply (by decide))
  | invalidation =>
    rw [List.mem_singleton.1 h]
    exact (Counts.request (by decide) (by decide)).closes (closes_reply (by decide))
  | victimFetch =>
    rw [List.mem_singleton.1 h]
    exact (Counts.request (by decide) (by decide)).closes (closes_reply (by decide))
  | metadataUpdate =>
    rw [List.mem_singleton.1 h]
    exact (Counts.request (by decide) (by decide)).closes (closes_updateCounter .nil)
  | placementNotify beacon evictions =>
    rw [List.mem_singleton.1 h]
    have hcounts : Counts ([.countRequest .crossEdge] : Script edgecnt)
        .coveredBgplacePlacementNotifyRequest := .request (by decide) (by decide)
    exact ((hcounts.append (.admitBeaconDirectory true)).append
      (.evictForCapacity _ _)).closes (closes_updateCounter .nil)
  | directoryLookup d isFastPathHintValid =>
    rw [List.mem_singleton.1 h]
    have hcounts : Counts ([.countRequest .crossEdge] : Script edgecnt)
        .coveredDirectoryLookupRequest := .request (by decide) (by decide)
    refine (hcounts.append (.updatePopularityAggregator _ _ d)).closes (closes_embedAndReply ?_)
    split
    · rfl
    · split
      · rfl
      · rfl
  | directoryUpdate d => exact counts_directoryUpdate d h
  | acquireWritelock allDirinfo =>
    rw [List.mem_singleton.1 h]
    have hcounts : Counts ([.countRequest .crossEdge] : Script edgecnt)
        .coveredAcquireWritelockRequest := .request (by decide) (by decide)
    refine ((hcounts.append .embed).append ?_).closes (closes_reply (by decide))
    split
    · exact .parallelInvalidateCacheCopies _
    · exact .nil
  | releaseWritelock d blockedEdges =>
    rw [List.mem_singleton.1 h]
    have hcounts : Counts ([.countRequest .crossEdge] : Script edgecnt)
        .coveredReleaseWritelockRequest := .request (by decide) (by decide)
    refine (((hcounts.append (.updatePopularityAggregator _ _ d)).append .embed).append
      (.parallelNotifyEdgesToFinishBlock _)).closes (closes_reply ?_)
    split
    · rfl
    · rfl
  | placementTrigger d =>
    rw [List.mem_singleton.1 h]
    have hcounts : Counts ([.countRequest .crossEdge] : Script edgecnt)
        .coveredPlacementTriggerRequest := .request (by decide) (by decide)
    refine (hcounts.append (.updatePopularityAggregator _ _ d)).closes (closes_reply ?_)
    split
    · rfl
    · rfl
  | rspToRedirectGet isCooperativeHit edgeset requirement =>
    rw [List.mem_singleton.1 h]
    have hcounts : Counts ([.countResponse .crossEdge] : Script edgecnt)
        .coveredBgfetchRedirectedGetResponse := .response (by decide)
    refine hcounts.closes (closes_updateCounter ?_)
    split
    · exact .nonblockNotifyForPlacement _ _
    · exact .notify _ _
  | rspToAccessCloud edgeset requirement =>
    rw [List.mem_singleton.1 h]
    have hcounts : Counts ([.countResponse .edgeCloud] : Script edgecnt)
        .coveredBgfetchGlobalGetResponse := .response (by decide)
    exact hcounts.closes (closes_updateCounter (.nonblockNotifyForPlacement _ _))

theorem closes_processGlobalRequest (h : t ∈ globalRequests) :
    Closes (processGlobalRequest t : Script edgecnt) [[t]] false false := by
  have hrequest : ∀ t ∈ globalRequests, isRequest t = true ∧ linkOf t = .edgeCloud := by decide
  have hcounts : Counts ([.countRequest .edgeCloud] : Script edgecnt) t :=
    .request (hrequest t h).1 (hrequest t h).2
  refine hcounts.closes (closes_reply ?_)
  split
  · rfl
  · split
    · rfl
    · split
      · rfl
      · rfl

theorem closes_processLocalCacheAdmission (evictions : List (EvictionBatch edgecnt)) :
    Closes (processLocalCacheAdmission current evictions) [] false false :=
  (Balanced.evictForCapacity true evictions).closes (closes_updateCounter .nil) false

theorem closes_issueItemToEdge (item : WorkloadItem) (worker : Thread edgecnt) :
    Closes (issueItemToEdge item worker) [] false false := by
  have hlink : linkOf item.response = .clientEdge := by
    cases item with
    | get => rfl
    | put => rfl
    | del => rfl
  have hreport : Closes ([.updateBandwidthUsage] : Script edgecnt) [] true false := ⟨rfl, rfl, rfl⟩
  exact (Balanced.exchange hlink).closes hreport false

end Covered.Edge.FlowAccounting
