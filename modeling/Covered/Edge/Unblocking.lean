import Covered.Edge.FinishBlockProtocol

/-!
# Who is asked to finish blocking will answer

While `parallelNotifyEdgesToFinishBlock` waits for the acknowledgement of a worker, the worker is
blocked on the key, or a response that blocks it is in flight to it, or its FinishBlockResponse is
in flight to the caller (`notified_worker_answers`). This holds in every run whose steps meet the
condition; without it the caller waits for a worker that will not answer
(`notified_worker_left`).

The invariant says of every worker and key: either nobody waits for a further acknowledgement of the
worker (`Settled`), or the worker is ready to give one (`Ready`).
-/

set_option autoImplicit false
set_option linter.unusedSectionVars false

namespace Covered.Edge

open Common Cooperation Lib Lib.Checked Lib.Execution KeyedList Function List CooperationWrapper
open ParallelRequest

/-! ## For whom a call waits -/

namespace Loop

variable {τ ρ α : Type} [DecidableEq τ] {f : ParallelRequest τ ρ α} {s s' : Loop τ α} {t : τ}

/-- What holds of the flags of a call with a single batch. -/
structure SingleBatch (s : Loop τ α) : Prop where
  flags : KeyedList.NodupKeys Prod.fst s.ackedFlags
  remaining : s.remainingVictims.Nodup
  asked : s.phase = .batching ∨ s.remainingVictims = []

variable {targets sent : List τ}

theorem singleBatch_start (h : targets.Nodup) (acc : α) : (start targets acc).SingleBatch :=
  ⟨nodup_nil, h, .inl rfl⟩

theorem awaits_start {acc : α} (h : (start targets acc).Awaits t) :
    t ∈ targets :=
  h.resolve_right fun hflag => nomatch hflag

theorem Awaits.mem (h : s.Awaits t) : t ∈ s.remainingVictims ∨ (t, false) ∈ s.ackedFlags := by
  rw [Awaits] at h
  split at h
  · exact h.elim
  · exact h

theorem awaits_of_mem (hphase : ∀ isFinish, s.phase ≠ .returned isFinish)
    (h : t ∈ s.remainingVictims ∨ (t, false) ∈ s.ackedFlags) : s.Awaits t := by
  rw [Awaits]
  split
  · next isFinish hp => exact hphase isFinish hp
  · exact h

/-- The call waits for no further target. -/
structure Narrows (s s' : Loop τ α) : Prop where
  single : s'.SingleBatch
  awaits : ∀ t, s'.Awaits t → s.Awaits t

/-- A step of a call without new flags. -/
theorem SingleBatch.narrows (h : s.SingleBatch) (hphase : ∀ isFinish, s.phase ≠ .returned isFinish)
    (hflags : KeyedList.NodupKeys Prod.fst s'.ackedFlags)
    (hremaining : s'.remainingVictims = s.remainingVictims)
    (hasked : s.phase = .batching → s'.remainingVictims = [])
    (hmem : ∀ t, (t, false) ∈ s'.ackedFlags → (t, false) ∈ s.ackedFlags) : Narrows s s' where
  single := by
    refine ⟨hflags, hremaining ▸ h.remaining, .inr ?_⟩
    rcases h.asked with hp | hnil
    · exact hasked hp
    · rw [hremaining, hnil]
  awaits := fun t ht => awaits_of_mem hphase
    (ht.mem.imp (fun hrem => hremaining ▸ hrem) (hmem t))

theorem flags_acknowledge (h : KeyedList.NodupKeys Prod.fst s.ackedFlags) (t : τ) :
    KeyedList.NodupKeys Prod.fst (s.acknowledge t).ackedFlags ∧
      ∀ u, (u, false) ∈ (s.acknowledge t).ackedFlags → u ≠ t ∧ (u, false) ∈ s.ackedFlags := by
  refine ⟨h.replace rfl, fun u hu => ?_⟩
  rcases mem_acknowledge h hu with heq | hmem
  · cases heq
  · exact hmem

/-- A sending round sets flags only. -/
theorem flags_sendRequests {l : List (τ × Bool)} (h : KeyedList.NodupKeys Prod.fst s.ackedFlags)
    (hstep : f.sendRequests l s = some (s', sent)) :
    KeyedList.NodupKeys Prod.fst s'.ackedFlags ∧ s'.remainingVictims = s.remainingVictims ∧
      ∀ t, (t, false) ∈ s'.ackedFlags → (t, false) ∈ s.ackedFlags := by
  induction l generalizing s s' sent with
  | nil =>
    cases hstep
    exact ⟨h, rfl, fun t => id⟩
  | cons p rest ih =>
    obtain ⟨t, isAcked⟩ := p
    rw [sendRequests] at hstep
    split at hstep
    · exact ih h hstep
    · obtain ⟨-, hstep⟩ := require_bind_iff.1 hstep
      split at hstep
      · obtain ⟨⟨acc, isFinish⟩, hhandle⟩ : ∃ p, f.handleCurrent t s.acc = p := ⟨_, rfl⟩
        rw [hhandle] at hstep
        cases isFinish with
        | true =>
          cases hstep
          exact ⟨h, rfl, fun t => id⟩
        | false =>
          obtain ⟨hflags, hmem⟩ := flags_acknowledge h t
          obtain ⟨hflags', hremaining, hmem'⟩ := ih
            (s := { s.acknowledge t with acc := acc, processed := s.processed ++ [t] }) hflags hstep
          exact ⟨hflags', hremaining, fun u hu => (hmem u (hmem' u hu)).2⟩
      · simp only [bind_eq_some_iff, pure_eq_some_iff, Prod.mk.injEq] at hstep
        obtain ⟨⟨s1, sent1⟩, hrest, rfl, -⟩ := hstep
        exact ih (s := { s with acc := f.getRequest t s.acc, isMeasureFirstReq := true }) h hrest

@[simp] theorem remainingVictims_await (n : Nat) :
    (s.await n).remainingVictims = s.remainingVictims := by
  rw [await]
  split <;> rfl

theorem narrows_advance (hsingle : f.maxVictimcnt = none) (h : s.SingleBatch)
    (hstep : f.advance s = some (s', sent)) : Narrows s s' := by
  rw [advance] at hstep
  split at hstep
  · next hp =>
    have hphase : ∀ isFinish, s.phase ≠ .returned isFinish := by
      rw [hp]
      exact fun _ => LoopPhase.noConfusion
    split at hstep
    · next hnil =>
      cases hstep
      exact h.narrows hphase h.flags rfl (fun _ => hnil) fun t => id
    · -- all remaining targets are the one batch
      simp only [nextBatch, hsingle, some_bind, pure_eq_some_iff,
        Prod.mk.injEq] at hstep
      obtain ⟨rfl, -⟩ := hstep
      have hrest : (s.beginBatch s.remainingVictims).remainingVictims = [] := drop_length
      refine ⟨⟨?_, ?_, .inr hrest⟩, fun t ht => awaits_of_mem hphase (.inl ?_)⟩
      · rw [KeyedList.NodupKeys, Loop.beginBatch, map_map]
        exact (map_id s.remainingVictims).symm ▸ h.remaining
      · rw [hrest]
        exact nodup_nil
      · rcases ht.mem with hrem | hflag
        · rw [hrest] at hrem
          cases hrem
        · obtain ⟨u, hu, heq⟩ := mem_map.1 hflag
          cases heq
          exact hu
  · next hp =>
    have hphase : ∀ isFinish, s.phase ≠ .returned isFinish := by
      rw [hp]
      exact fun _ => LoopPhase.noConfusion
    have hbatching : s.phase ≠ .batching := by
      rw [hp]
      exact LoopPhase.noConfusion
    split at hstep
    · cases hstep
      exact h.narrows hphase h.flags rfl (fun hp => absurd hp hbatching) fun t => id
    · split at hstep
      · cases hstep
        refine h.narrows hphase ?_ (remainingVictims_await _) (fun hp => absurd hp hbatching) ?_
        · rw [ackedFlags_await]
          exact h.flags
        · intro t ht
          rwa [ackedFlags_await] at ht
      · simp only [bind_eq_some_iff, pure_eq_some_iff, Prod.mk.injEq] at hstep
        obtain ⟨⟨s1, sent1⟩, hsend, rfl, -⟩ := hstep
        obtain ⟨hflags, hremaining, hmem⟩ := flags_sendRequests (s := s.restartMeasurement)
          h.flags hsend
        refine h.narrows hphase ?_ ((remainingVictims_await _).trans hremaining)
          (fun hp => absurd hp hbatching) ?_
        · rw [ackedFlags_await]
          exact hflags
        · intro t ht
          rw [ackedFlags_await] at ht
          exact hmem t ht
  · cases hstep

theorem narrows_timeout (h : s.SingleBatch) {isNodeRunning : Bool}
    (hstep : s.timeout isNodeRunning = some s') : Narrows s s' := by
  rw [timeout] at hstep
  split at hstep
  · next n hp =>
    have hphase : ∀ isFinish, s.phase ≠ .returned isFinish := by
      rw [hp]
      exact fun _ => LoopPhase.noConfusion
    have hasked : s.phase = .batching → s.remainingVictims = [] := by
      rw [hp]
      exact LoopPhase.noConfusion
    split at hstep
    · cases hstep
      exact h.narrows hphase h.flags rfl hasked fun t => id
    · cases hstep
      exact h.narrows hphase h.flags rfl hasked fun t => id
  · cases hstep

theorem flags_measureFirstRsp (hstep : f.measureFirstRsp s = some s') :
    s'.ackedFlags = s.ackedFlags ∧ s'.remainingVictims = s.remainingVictims := by
  rw [measureFirstRsp] at hstep
  split at hstep
  · cases hstep
    exact ⟨rfl, rfl⟩
  · obtain ⟨-, heq⟩ := require_bind_iff.1 hstep
    cases heq
    exact ⟨rfl, rfl⟩

/-- Matching a response sets the flag of its target, if the target is in the batch. -/
theorem flags_matchResponse {r : ρ} (h : KeyedList.NodupKeys Prod.fst s.ackedFlags)
    (hstep : f.matchResponse r s = some s') :
    KeyedList.NodupKeys Prod.fst s'.ackedFlags ∧ s'.remainingVictims = s.remainingVictims ∧
      ∀ t, (t, false) ∈ s'.ackedFlags → t ≠ f.target r ∧ (t, false) ∈ s.ackedFlags := by
  rw [matchResponse] at hstep
  split at hstep
  · next hfind =>
    cases hstep
    refine ⟨h, rfl, fun t ht => ⟨?_, ht⟩⟩
    rintro rfl
    exact find_eq_none_iff.1 hfind (mem_map.2 ⟨_, ht, rfl⟩)
  · obtain ⟨-, hstep⟩ := require_bind_iff.1 hstep
    obtain ⟨-, hstep⟩ := require_bind_iff.1 hstep
    cases hstep
    split
    · obtain ⟨hflags, hmem⟩ := flags_acknowledge h (f.target r)
      exact ⟨hflags, rfl, hmem⟩
    · obtain ⟨hflags, hmem⟩ := flags_acknowledge (s := f.processResponse r s) h (f.target r)
      exact ⟨hflags, rfl, hmem⟩

/-- After a response with the message seqnum of the call it does not wait for its target. -/
theorem narrows_receive (h : s.SingleBatch) {curMsgSeqnum msgSeqnum : Nat} {r : ρ}
    (hstep : f.receive curMsgSeqnum msgSeqnum r s = some s') :
    Narrows s s' ∧ (msgSeqnum = curMsgSeqnum → ¬ s'.Awaits (f.target r)) := by
  rw [receive] at hstep
  split at hstep
  · next n hp =>
    have hphase : ∀ isFinish, s.phase ≠ .returned isFinish := by
      rw [hp]
      exact fun _ => LoopPhase.noConfusion
    have hbatching : s.phase ≠ .batching := by
      rw [hp]
      exact LoopPhase.noConfusion
    split at hstep
    · next hne =>
      cases hstep
      exact ⟨h.narrows hphase h.flags rfl (fun hp => absurd hp hbatching) fun t => id,
        fun heq => absurd heq hne⟩
    · simp only [bind_eq_some_iff, pure_eq_some_iff] at hstep
      obtain ⟨s1, hmeasure, s3, hmatch, rfl⟩ := hstep
      obtain ⟨hflags1, hremaining1⟩ := flags_measureFirstRsp hmeasure
      -- processing the response does not touch the flags
      have hprocess : ∀ s2 : Loop τ α,
          s2 = (if f.processesUnmatched then f.processResponse r s1 else s1) →
          s2.ackedFlags = s.ackedFlags ∧ s2.remainingVictims = s.remainingVictims := by
        rintro s2 rfl
        split
        · exact ⟨hflags1, hremaining1⟩
        · exact ⟨hflags1, hremaining1⟩
      generalize hs2 : (if f.processesUnmatched = true then f.processResponse r s1 else s1) = s2
        at hmatch
      obtain ⟨hflags2, hremaining2⟩ := hprocess s2 hs2.symm
      obtain ⟨hflags, hremaining, hmem⟩ := flags_matchResponse (s := s2) (hflags2 ▸ h.flags) hmatch
      have hnil : s.remainingVictims = [] := h.asked.resolve_left hbatching
      have hrest : (s3.await (n - 1)).remainingVictims = s.remainingVictims := by
        rw [remainingVictims_await, hremaining, hremaining2]
      refine ⟨h.narrows hphase ?_ hrest (fun hp => absurd hp hbatching) fun t ht => ?_,
        fun _ ht => ?_⟩
      · rw [ackedFlags_await]
        exact hflags
      · rw [ackedFlags_await] at ht
        exact hflags2 ▸ (hmem t ht).2
      · rcases ht.mem with hrem | hflag
        · rw [hrest, hnil] at hrem
          cases hrem
        · rw [ackedFlags_await] at hflag
          exact (hmem _ hflag).1 rfl
  · cases hstep

end Loop

namespace FinishBlockProtocol

variable {σ π : Type} {sys : System σ π} {s s' : State σ π} {addr a : NetworkAddr} {key : Key}
  {seqnum i : Nat}

/-! ## Messages in flight -/

section Messages

variable {responses responses' : List Response} {messages messages' : List (FinishBlockResponse π)}
  {call : Call σ}

theorem HasBlocking.mono (h : HasBlocking responses addr seqnum)
    (hsub : ∀ r ∈ responses, r ∈ responses') : HasBlocking responses' addr seqnum := by
  obtain ⟨r, hr, hfields⟩ := h
  exact ⟨r, hsub r hr, hfields⟩

/-- Without a response there is another one, unless it is the response itself. -/
theorem HasBlocking.eraseIdx (h : HasBlocking responses addr seqnum) {r : Response}
    (hr : responses[i]? = some r) :
    HasBlocking (responses.eraseIdx i) addr seqnum ∨
      r.addr = addr ∧ r.seqnum = seqnum ∧ r.content.isBlocking = true := by
  obtain ⟨r', hr', hfields⟩ := h
  rcases mem_eraseIdx_or i hr' with heq | hmem
  · rw [hr] at heq
    cases heq
    exact .inr hfields
  · exact .inl ⟨r', hmem, hfields⟩

theorem HasResponse.mono (h : HasResponse messages call addr)
    (hsub : ∀ m ∈ messages, m ∈ messages') : HasResponse messages' call addr := by
  obtain ⟨m, hm, hfields⟩ := h
  exact ⟨m, hsub m hm, hfields⟩

theorem HasResponse.eraseIdx (h : HasResponse messages call addr) {m : FinishBlockResponse π}
    (hm : messages[i]? = some m) :
    HasResponse (messages.eraseIdx i) call addr ∨
      m.receiver = call.receiver ∧ m.seqnum = call.curMsgSeqnum ∧ m.response.sourceAddr = addr := by
  obtain ⟨m', hm', hfields⟩ := h
  rcases mem_eraseIdx_or i hm' with heq | hmem
  · rw [hm] at heq
    cases heq
    exact .inr hfields
  · exact .inl ⟨m', hmem, hfields⟩

theorem Settled.mono (h : Settled sys s messages addr key)
    (hsub : ∀ m ∈ messages, m ∈ messages') : Settled sys s messages' addr key :=
  ⟨h.1, fun call hcall hkey hawaits => (h.2 call hcall hkey hawaits).mono hsub⟩

end Messages

/-! ## The invariant -/

/-- The worker will give one more acknowledgement for the key. -/
def Ready (s : State σ π) (addr : NetworkAddr) (key : Key) : Prop :=
  IsBlocked s addr key ∨ WillBlock s addr key

/-- What holds in every state of a run that meets the condition. -/
structure Inv (sys : System σ π) (s : State σ π) : Prop where
  beacons : ∀ edgeIdx, CooperationWrapper.Invariant (s.beacons edgeIdx)
  receivers : KeyedList.NodupKeys Call.receiver s.calls
  loops : ∀ call ∈ s.calls, call.loop.SingleBatch
  notifying : ∀ call ∈ s.calls, ∀ addr, call.caller = .cacheServerWorker addr →
    s.workers addr = .notifying call.key
  answers : ∀ addr key, Settled sys s s.finishBlockResponses addr key ∨ Ready s addr key

theorem inv_initial : Inv sys (initial : State σ π) where
  beacons := fun _ => invariant_initial
  receivers := nodup_nil
  loops := fun call hcall => absurd hcall not_mem_nil
  notifying := fun call hcall => absurd hcall not_mem_nil
  answers := by
    refine fun addr key => .inl ⟨fun l hl => ?_, fun call hcall => absurd hcall not_mem_nil⟩
    simp [System.beacon, initial, blocked, BlockTracker.blocked] at hl

/-- A worker is ready for the key that it looks up or acquires only. -/
theorem Ready.currentKey (h : Ready s addr key) : (s.workers addr).currentKey = some key := by
  rcases h with hblocked | ⟨⟨key', seqnum⟩, hawaited, rfl, -⟩
  · rw [IsBlocked] at hblocked
    cases hw : s.workers addr with
    | blocked kind key' => simpa [hw, WorkerState.blockedKey, WorkerState.currentKey] using hblocked
    | _ => simp [hw, WorkerState.blockedKey] at hblocked
  · cases hw : s.workers addr with
    | waiting kind key'' seqnum' =>
      simp only [hw, WorkerState.awaited, Option.mem_def, Option.some.injEq,
        Prod.mk.injEq] at hawaited
      rw [WorkerState.currentKey, hawaited.1]
    | _ => simp [hw, WorkerState.awaited] at hawaited

theorem Ready.mono (h : Ready s addr key) (hworker : s'.workers addr = s.workers addr)
    (hresponses : ∀ seqnum, IsWaiting s addr seqnum → HasBlocking s.responses addr seqnum →
      HasBlocking s'.responses addr seqnum) : Ready s' addr key := by
  refine h.imp (fun hblocked => ?_) fun ⟨p, hp, hkey, hblocking⟩ => ?_
  · rw [IsBlocked, hworker]
    exact hblocked
  · refine ⟨p, hworker ▸ hp, hkey, hresponses p.2 ?_ hblocking⟩
    rw [IsWaiting, Option.mem_def.1 hp]
    rfl

variable {messages : List (FinishBlockResponse π)}

/-- A worker that may leave owes nobody an acknowledgement. -/
theorem MayLeave.settled (h : MayLeave sys s messages addr)
    (hanswers : Settled sys s messages addr key ∨ Ready s addr key) :
    Settled sys s messages addr key :=
  hanswers.elim id fun hready => h key hready.currentKey

theorem mayLeave_of_currentKey
    (h : (s.workers addr).currentKey = none) : MayLeave sys s messages addr := by
  intro key hkey
  rw [h] at hkey
  cases hkey

/-! ## The workers -/

section Workers

/-- A step of one worker: the others keep their responses, and it owes no acknowledgement more than
it is ready to give. -/
theorem Inv.of_worker (h : Inv sys s) (addr : NetworkAddr) (hbeacons : s'.beacons = s.beacons)
    (hcalls : s'.calls = s.calls)
    (hmessages : ∀ m ∈ s.finishBlockResponses, m ∈ s'.finishBlockResponses)
    (hworkers : ∀ a, a ≠ addr → s'.workers a = s.workers a)
    (hcaller : ∀ call ∈ s.calls, call.caller ≠ .cacheServerWorker addr)
    (hresponses : ∀ a, a ≠ addr → ∀ seqnum, HasBlocking s.responses a seqnum →
      HasBlocking s'.responses a seqnum)
    (hself : ∀ key, Settled sys s s'.finishBlockResponses addr key ∨ Ready s addr key →
      Settled sys s s'.finishBlockResponses addr key ∨ Ready s' addr key) : Inv sys s' where
  beacons := hbeacons ▸ h.beacons
  receivers := hcalls ▸ h.receivers
  loops := hcalls ▸ h.loops
  notifying := by
    intro call hcall a heqCaller
    rw [hcalls] at hcall
    have hne : a ≠ addr := fun heq => hcaller call hcall (heq ▸ heqCaller)
    rw [hworkers a hne, h.notifying call hcall a heqCaller]
  answers := by
    intro a key
    have hsettled : Settled sys s s'.finishBlockResponses a key →
        Settled sys s' s'.finishBlockResponses a key := by
      rintro ⟨hblock, hawaited⟩
      refine ⟨?_, fun call hcall => hawaited call (hcalls ▸ hcall)⟩
      rw [System.beacon, hbeacons]
      exact hblock
    have hbefore := (h.answers a key).imp_left fun hsettled => hsettled.mono hmessages
    by_cases ha : a = addr
    · subst ha
      exact (hself key hbefore).imp_left hsettled
    · exact hbefore.imp hsettled fun hready =>
        hready.mono (hworkers a ha) fun seqnum _ => hresponses a ha seqnum

/-- A worker that may leave goes on. -/
theorem Inv.of_leave (h : Inv sys s) (addr : NetworkAddr) (hbeacons : s'.beacons = s.beacons)
    (hcalls : s'.calls = s.calls)
    (hmessages : ∀ m ∈ s.finishBlockResponses, m ∈ s'.finishBlockResponses)
    (hworkers : ∀ a, a ≠ addr → s'.workers a = s.workers a)
    (hcaller : ∀ call ∈ s.calls, call.caller ≠ .cacheServerWorker addr)
    (hresponses : ∀ a, a ≠ addr → ∀ seqnum, HasBlocking s.responses a seqnum →
      HasBlocking s'.responses a seqnum)
    (hleave : MayLeave sys s s'.finishBlockResponses addr) : Inv sys s' :=
  h.of_worker addr hbeacons hcalls hmessages hworkers hcaller hresponses
    fun _ hbefore => .inl (hleave.settled hbefore)

/-- A worker that does not notify is in no call. -/
theorem Inv.not_caller (h : Inv sys s) (addr : NetworkAddr)
    (hworker : ∀ key, s.workers addr ≠ .notifying key) :
    ∀ call ∈ s.calls, call.caller ≠ .cacheServerWorker addr :=
  fun call hcall heq => hworker call.key (h.notifying call hcall addr heq)

theorem Inv.setWorker (h : Inv sys s)
    (hcaller : ∀ call ∈ s.calls, call.caller ≠ .cacheServerWorker addr)
    (hleave : MayLeave sys s s.finishBlockResponses addr) (worker : WorkerState) :
    Inv sys (s.setWorker addr worker) :=
  h.of_leave addr rfl rfl (fun _ => id) (fun _ ha => update_of_ne ha ..) hcaller
    (fun _ _ _ => id) hleave

theorem Inv.sendFresh (h : Inv sys s)
    (hcaller : ∀ call ∈ s.calls, call.caller ≠ .cacheServerWorker addr)
    (hleave : MayLeave sys s s.finishBlockResponses addr) (kind : RequestKind) (key : Key) :
    Inv sys (sys.sendFresh s kind addr key) :=
  h.of_leave addr rfl rfl (fun _ => id) (fun _ ha => update_of_ne ha ..) hcaller
    (fun _ _ _ => id) hleave

/-- Messages that no answer depends on come and go. -/
theorem Inv.of_responses (h : Inv sys s) (hbeacons : s'.beacons = s.beacons)
    (hcalls : s'.calls = s.calls) (hmessages : s'.finishBlockResponses = s.finishBlockResponses)
    (hworkers : s'.workers = s.workers)
    (hanswers : ∀ addr key, Ready s addr key →
      Settled sys s s.finishBlockResponses addr key ∨ Ready s' addr key) : Inv sys s' where
  beacons := hbeacons ▸ h.beacons
  receivers := hcalls ▸ h.receivers
  loops := hcalls ▸ h.loops
  notifying := by
    rw [hcalls, hworkers]
    exact h.notifying
  answers := by
    intro addr key
    have hsettled : Settled sys s s.finishBlockResponses addr key →
        Settled sys s' s'.finishBlockResponses addr key := by
      rintro ⟨hblock, hawaited⟩
      rw [hmessages]
      refine ⟨?_, fun call hcall => hawaited call (hcalls ▸ hcall)⟩
      rw [System.beacon, hbeacons]
      exact hblock
    rcases h.answers addr key with hold | hready
    · exact .inl (hsettled hold)
    · exact (hanswers addr key hready).imp_left hsettled

theorem Inv.timeout (h : Inv sys s) {isNodeRunning : Bool}
    (hmeets : isNodeRunning = true ∨ MayLeave sys s s.finishBlockResponses addr)
    (hstep : System.timeout s addr isNodeRunning = some s') : Inv sys s' := by
  rw [System.timeout] at hstep
  split at hstep
  · next kind key seqnum hw =>
    split at hstep
    · -- the request is sent again
      cases hstep
      exact h.of_responses rfl rfl rfl rfl fun _ _ => .inr
    · next hrunning =>
      cases hstep
      have hcaller := h.not_caller addr fun key => by rw [hw]; exact WorkerState.noConfusion
      exact h.setWorker hcaller (hmeets.resolve_left hrunning) .idle
  · next kind key hw =>
    split at hstep
    · cases hstep
      exact h
    · next hrunning =>
      cases hstep
      have hcaller := h.not_caller addr fun key => by rw [hw]; exact WorkerState.noConfusion
      exact h.setWorker hcaller (hmeets.resolve_left hrunning) .idle
  · cases hstep

/-- A response is lost, or dropped. -/
theorem Inv.eraseResponse (h : Inv sys s) {r : Response} (hr : s.responses[i]? = some r)
    (hmeets : IsWaiting s r.addr r.seqnum → r.content.isBlocking = true →
      HasBlocking (s.responses.eraseIdx i) r.addr r.seqnum ∨
        MayLeave sys s s.finishBlockResponses r.addr) :
    Inv sys { s with responses := s.responses.eraseIdx i } := by
  refine h.of_responses rfl rfl rfl rfl fun a key hready => ?_
  rcases hready with hblocked | ⟨p, hp, hkey, hblocking⟩
  · exact .inr (.inl hblocked)
  · rcases hblocking.eraseIdx hr with hother | ⟨rfl, hseqnum, hblocking'⟩
    · exact .inr (.inr ⟨p, hp, hkey, hother⟩)
    · have hwaiting : IsWaiting s r.addr r.seqnum := by
        rw [IsWaiting, Option.mem_def.1 hp, hseqnum]
        rfl
      rcases hmeets hwaiting hblocking' with hother | hleave
      · exact .inr (.inr ⟨p, hp, hkey, hseqnum ▸ hother⟩)
      · have hready : Ready s r.addr key := .inr ⟨p, hp, hkey, hblocking⟩
        exact .inl (hleave key hready.currentKey)

/-- The response to a request for a key blocks its worker on the key. -/
theorem afterResponse_of_isBlocking {kind : RequestKind} {content : ResponseContent}
    {worker : WorkerState} (hblocking : content.isBlocking = true)
    (h : System.afterResponse kind key content = some worker) : worker = .blocked kind key := by
  cases content with
  | directoryLookup isBeingWritten isValidDirectoryExist directoryInfo =>
    obtain ⟨-, heq⟩ := require_bind_iff.1 h
    have hwritten : isBeingWritten = true := hblocking
    rw [if_pos hwritten] at heq
    exact (Option.some.inj heq).symm
  | acquireWritelock lockResult =>
    obtain ⟨-, heq⟩ := require_bind_iff.1 h
    obtain rfl : lockResult = .kFailure := of_decide_eq_true hblocking
    exact (Option.some.inj heq).symm
  | releaseWritelock => cases hblocking

theorem Inv.receiveResponse (h : Inv sys s) {r : Response} (hr : s.responses[i]? = some r)
    (hmeets : IsWaiting s r.addr r.seqnum →
      r.content.isBlocking = true ∨ MayLeave sys s s.finishBlockResponses r.addr)
    (hstep : System.receiveResponse { s with responses := s.responses.eraseIdx i } r = some s') :
    Inv sys s' := by
  rw [System.receiveResponse] at hstep
  split at hstep
  · next kind key seqnum hw =>
    have hw' : s.workers r.addr = .waiting kind key seqnum := hw
    split at hstep
    · next hseqnum =>
      obtain ⟨worker, hafter, heq⟩ := bind_eq_some_iff.1 hstep
      cases heq
      have hcaller := h.not_caller r.addr fun key' => by
        rw [hw']
        exact WorkerState.noConfusion
      have hothers : ∀ a, a ≠ r.addr → ∀ q, HasBlocking s.responses a q →
          HasBlocking (s.responses.eraseIdx i) a q :=
        fun a ha q hblocking => (hblocking.eraseIdx hr).resolve_right fun hsame => ha hsame.1.symm
      have hwaiting : IsWaiting s r.addr r.seqnum := by
        rw [IsWaiting, hw', hseqnum]
        rfl
      rcases hmeets hwaiting with hblocking | hleave
      · -- the worker blocks on the key for which it was ready
        obtain rfl := afterResponse_of_isBlocking hblocking hafter
        refine h.of_worker r.addr rfl rfl (fun _ => id) (fun _ ha => update_of_ne ha ..)
          hcaller hothers fun key' hbefore => hbefore.imp_right fun hready => .inl ?_
        have hkey := hready.currentKey
        rw [hw'] at hkey
        rw [IsBlocked, State.workers_setWorker, update_self]
        exact hkey
      · exact h.of_leave r.addr rfl rfl (fun _ => id) (fun _ ha => update_of_ne ha ..)
          hcaller hothers hleave
    · next hseqnum =>
      cases hstep
      refine h.eraseResponse hr fun hwaiting => absurd ?_ hseqnum
      rw [IsWaiting, hw'] at hwaiting
      exact (Option.some.inj hwaiting).symm
  · cases hstep

theorem Inv.blockForWritesByInterruption (h : Inv sys s) {request : FinishBlockRequest}
    {needLookupBeaconDirectory : Bool} {content : π}
    (hmeets : IsBlocked s request.addr request.key → MayLeave sys s
      (sys.finishBlockResponse request content :: s.finishBlockResponses) request.addr)
    (hstep : sys.blockForWritesByInterruption
      { s with finishBlockRequests := s.finishBlockRequests.eraseIdx i } request
      needLookupBeaconDirectory content = some s') : Inv sys s' := by
  rw [System.blockForWritesByInterruption] at hstep
  split at hstep
  · next kind key hw =>
    have hw' : s.workers request.addr = .blocked kind key := hw
    split at hstep
    · next hkey =>
      have hcaller := h.not_caller request.addr fun key' => by
        rw [hw']
        exact WorkerState.noConfusion
      have hleave := hmeets (by rw [IsBlocked, hw', hkey]; rfl)
      split at hstep
      · cases hstep
        exact h.of_leave request.addr rfl rfl (fun _ => mem_cons_of_mem _)
          (fun _ ha => update_of_ne ha ..) hcaller (fun _ _ _ => id) hleave
      · cases hstep
        exact h.of_leave request.addr rfl rfl (fun _ => mem_cons_of_mem _)
          (fun _ ha => update_of_ne ha ..) hcaller (fun _ _ _ => id) hleave
    · cases hstep
      exact h.of_responses rfl rfl rfl rfl fun _ _ => .inr
  · cases hstep

end Workers

/-! ## The beacons -/

section Beacons

variable {w' : CooperationWrapper} {request : Request}

/-- What an update of one blocklist means for the addresses in it. -/
theorem notBlocked_of_update {w : CooperationWrapper} {k : Key} {x : Option (List NetworkAddr)}
    (hblocked : w'.blocked = update w.blocked key x)
    (hself : k = key → ∀ l, x = some l → addr ∉ l) (h : w.NotBlocked k addr) :
    w'.NotBlocked k addr := by
  intro l hl
  rw [hblocked, update_apply] at hl
  split at hl
  · next hk => exact hself hk l hl
  · exact h l hl

/-- A step of the beacon of a key: the workers that it adds to the blocklist are ready. -/
theorem Inv.of_beacon (h : Inv sys s) (hinv : CooperationWrapper.Invariant w')
    (hbeacons : s'.beacons = update s.beacons (sys.beaconOf key) w')
    (hcalls : s'.calls = s.calls) (hmessages : s'.finishBlockResponses = s.finishBlockResponses)
    (hworkers : s'.workers = s.workers) (hresponses : ∀ r ∈ s.responses, r ∈ s'.responses)
    (hblocked : ∀ addr k, (sys.beacon s key).NotBlocked k addr →
      w'.NotBlocked k addr ∨ Ready s' addr k) : Inv sys s' where
  beacons := by
    intro edgeIdx
    rw [hbeacons, update_apply]
    split
    · exact hinv
    · exact h.beacons edgeIdx
  receivers := hcalls ▸ h.receivers
  loops := hcalls ▸ h.loops
  notifying := by
    rw [hcalls, hworkers]
    exact h.notifying
  answers := by
    intro addr k
    rcases h.answers addr k with ⟨hblock, hawaited⟩ | hready
    · have hcallsSettled : ∀ call ∈ s'.calls, call.key = k → call.loop.Awaits addr →
          HasResponse s'.finishBlockResponses call addr := by
        rw [hcalls, hmessages]
        exact hawaited
      have hbeacon : sys.beacon s' k =
          if sys.beaconOf k = sys.beaconOf key then w' else sys.beacon s k := by
        rw [System.beacon, hbeacons, update_apply]
        rfl
      rw [Settled, hbeacon]
      split
      · next hsame =>
        have hold : (sys.beacon s key).NotBlocked k addr := by
          rw [System.beacon, ← hsame]
          exact hblock
        exact (hblocked addr k hold).imp_left fun hblock' => ⟨hblock', hcallsSettled⟩
      · exact .inl ⟨hblock, hcallsSettled⟩
    · exact .inr (hready.mono (congrFun hworkers addr) fun _ _ hblocking =>
        hblocking.mono hresponses)

/-- A request that enters the blocklist comes from a worker that is ready when it is answered. -/
theorem ready_of_answer {content : ResponseContent} {messages : List Request}
    (hblocking : content.isBlocking = true)
    (hcurrent : s.workers request.addr = .waiting request.kind request.key request.seqnum ∨
      IsBlocked s request.addr request.key) (edgeIdx : Nat) :
    Ready ((State.setBeacon { s with requests := messages } edgeIdx w').pushResponse
      ⟨request.addr, request.key, request.seqnum, content⟩) request.addr request.key := by
  rcases hcurrent with hwaiting | hblocked
  · have hawaited : (s.workers request.addr).awaited = some (request.key, request.seqnum) := by
      rw [hwaiting]
      rfl
    exact .inr ⟨_, hawaited, rfl, _, mem_cons_self, rfl, rfl, hblocking⟩
  · exact .inl hblocked

variable {requests : List Request}

theorem Inv.processDirectoryLookupRequest (h : Inv sys s) {draw : Nat}
    (hkind : request.kind = .directoryLookup)
    (hmeets : EntersBlocklist sys s request →
      s.workers request.addr = .waiting request.kind request.key request.seqnum ∨
        IsBlocked s request.addr request.key)
    (hstep : sys.processDirectoryLookupRequest { s with requests := requests } request draw =
      some s') : Inv sys s' := by
  simp only [System.processDirectoryLookupRequest, bind_eq_some_iff, pure_eq_some_iff] at hstep
  obtain ⟨⟨w', reply⟩, hlookup, rfl⟩ := hstep
  have hbeacon : CooperationWrapper.Invariant (sys.beacon s request.key) := h.beacons _
  have hinv := invariant_lookupByBeaconServer hbeacon hlookup
  refine h.of_beacon hinv rfl rfl rfl rfl (fun _ => mem_cons_of_mem _) fun addr k hold => ?_
  rcases lookupByBeaconServer_spec hbeacon hlookup with
    ⟨-, rfl, -⟩ | ⟨l, hl, hmem, hwritten, -, -, -, hblocked⟩
  · exact .inl hold
  · by_cases hself : k = request.key ∧ addr = request.addr
    · obtain ⟨rfl, rfl⟩ := hself
      have hflag := (BlockTracker.isBeingWritten_iff hbeacon.all_writing request.key).2 ⟨l, hl⟩
      refine .inr (ready_of_answer ?_ (hmeets ⟨hflag, .inl hkind⟩) _)
      exact hwritten
    · refine .inl (notBlocked_of_update hblocked ?_ hold)
      rintro rfl l' ⟨⟩ hin
      rcases mem_cons.1 hin with heq | hin
      · exact hself ⟨rfl, heq⟩
      · exact hold l hl hin

theorem Inv.processAcquireWritelockRequest (h : Inv sys s)
    (hkind : request.kind = .acquireWritelock)
    (hmeets : EntersBlocklist sys s request →
      s.workers request.addr = .waiting request.kind request.key request.seqnum ∨
        IsBlocked s request.addr request.key)
    (hstep : sys.processAcquireWritelockRequest { s with requests := requests } request =
      some s') : Inv sys s' := by
  simp only [System.processAcquireWritelockRequest, bind_eq_some_iff, pure_eq_some_iff] at hstep
  obtain ⟨⟨w', reply⟩, hacquire, rfl⟩ := hstep
  have hbeacon : CooperationWrapper.Invariant (sys.beacon s request.key) := h.beacons _
  have hinv := invariant_acquireByBeaconServer hbeacon hacquire
  refine h.of_beacon hinv rfl rfl rfl rfl (fun _ => mem_cons_of_mem _) fun addr k hold => ?_
  rcases acquireByBeaconServer_spec hbeacon hacquire with
    ⟨-, rfl⟩ | ⟨-, -, -, hblocked, -⟩ | ⟨hresult, -, -, l, hl, hmem, hblocked⟩
  · exact .inl hold
  · refine .inl (notBlocked_of_update hblocked ?_ hold)
    rintro rfl l ⟨⟩
    exact not_mem_nil
  · by_cases hself : k = request.key ∧ addr = request.addr
    · obtain ⟨rfl, rfl⟩ := hself
      have hflag := (BlockTracker.isBeingWritten_iff hbeacon.all_writing request.key).2 ⟨l, hl⟩
      have hglobal := isGlobalCached_of_kFailure hbeacon hacquire hresult
      refine .inr (ready_of_answer ?_ (hmeets ⟨hflag, .inr ⟨hkind, hglobal⟩⟩) _)
      exact decide_eq_true hresult
    · refine .inl (notBlocked_of_update hblocked ?_ hold)
      rintro rfl l' ⟨⟩ hin
      rcases mem_cons.1 hin with heq | hin
      · exact hself ⟨rfl, heq⟩
      · exact hold l hl hin

theorem Inv.acquireLocalWritelock (h : Inv sys s) (hidle : s.workers addr = .idle)
    (hstep : sys.acquireLocalWritelock s addr key = some s') : Inv sys s' := by
  simp only [System.acquireLocalWritelock, bind_eq_some_iff, pure_eq_some_iff] at hstep
  obtain ⟨⟨w', reply⟩, hacquire, heq⟩ := hstep
  have hbeacon : CooperationWrapper.Invariant (sys.beacon s key) := h.beacons _
  have hinv := invariant_acquireByCacheServer hbeacon hacquire
  have hset : Inv sys (s.setBeacon (sys.beaconOf key) w') := by
    refine h.of_beacon hinv rfl rfl rfl rfl (fun _ => id) fun a k hold => .inl ?_
    rcases acquireByCacheServer_spec hbeacon hacquire with
      ⟨-, rfl⟩ | ⟨-, -, -, hblocked, -⟩ | ⟨-, -, -, -, -, hblocked⟩
    · exact hold
    · refine notBlocked_of_update hblocked ?_ hold
      rintro rfl l ⟨⟩
      exact not_mem_nil
    · intro l hl
      exact hold l (hblocked ▸ hl)
  split at heq
  · rw [← heq]
    have hworker : (s.setBeacon (sys.beaconOf key) w').workers addr = .idle := hidle
    refine hset.setWorker (hset.not_caller _ fun k => ?_) (mayLeave_of_currentKey ?_) _
    · rw [hworker]
      exact WorkerState.noConfusion
    · rw [hworker]
      rfl
  · rw [← heq]
    exact hset

theorem Inv.updateDirectory (h : Inv sys s) {source : Nat} {isAdmit : Bool}
    {reply : CooperationWrapper.UpdateReply}
    (hupdate : (sys.beacon s key).updateDirectoryTable key source isAdmit ⟨source⟩ =
      some (w', reply)) : Inv sys (s.setBeacon (sys.beaconOf key) w') := by
  have hbeacon : CooperationWrapper.Invariant (sys.beacon s key) := h.beacons _
  have hinv := invariant_updateDirectoryTable hbeacon hupdate
  refine h.of_beacon hinv rfl rfl rfl rfl (fun _ => id) fun a k hold => .inl fun l hl => hold l ?_
  rw [blocked] at hl ⊢
  rw [← (updateDirectoryTable_spec hbeacon hupdate).1]
  exact hl

end Beacons

/-! ## The calls -/

section Calls

variable {caller : Caller} {call : Call σ} {loop : Loop NetworkAddr σ} {receiver : Receiver}

theorem receiver_ne_of_call?_eq_none (h : s.call? receiver = none) (hcall : call ∈ s.calls) :
    call.receiver ≠ receiver := fun heq =>
  find_eq_none_iff.1 h (mem_map.2 ⟨call, hcall, heq⟩)

/-- The caller goes on when all blocked edges are notified. -/
theorem Inv.afterNotification (h : Inv sys s) (hfree : s.call? caller.receiver = none)
    (hworker : ∀ addr, caller = .cacheServerWorker addr → (s.workers addr).currentKey = none) :
    Inv sys (System.afterNotification s caller) := by
  cases caller with
  | beaconServer edgeIdx request =>
    exact h.of_responses rfl rfl rfl rfl fun addr key hready => .inr
      (hready.mono rfl fun _ _ hblocking => hblocking.mono fun _ => mem_cons_of_mem _)
  | cacheServerWorker addr =>
    refine h.setWorker (fun call hcall heq => ?_) (mayLeave_of_currentKey (hworker addr rfl)) .idle
    refine receiver_ne_of_call?_eq_none hfree hcall ?_
    rw [Call.receiver, heq]

/-- A new call waits for workers that are ready. -/
theorem Inv.notifyEdgesToFinishBlock (h : Inv sys s) (hfree : s.call? caller.receiver = none)
    (hworker : ∀ addr, caller = .cacheServerWorker addr → s.workers addr = .notifying key)
    {blockedEdges : List NetworkAddr} (hnodup : blockedEdges.Nodup)
    (hready : ∀ addr ∈ blockedEdges, Ready s addr key) (acc : σ) :
    Inv sys (sys.notifyEdgesToFinishBlock s caller key blockedEdges acc) := by
  rw [System.notifyEdgesToFinishBlock]
  split
  · refine h.afterNotification hfree fun addr heq => ?_
    rw [hworker addr heq]
    rfl
  · refine ⟨h.beacons, ?_, ?_, ?_, fun addr k => ?_⟩
    · exact nodup_cons.2 ⟨find_eq_none_iff.1 hfree, h.receivers⟩
    · intro call hcall
      rcases mem_cons.1 hcall with rfl | hcall
      · exact Loop.singleBatch_start hnodup acc
      · exact h.loops call hcall
    · intro call hcall addr heq
      rcases mem_cons.1 hcall with rfl | hcall
      · exact hworker addr heq
      · exact h.notifying call hcall addr heq
    · by_cases hblocked : k = key ∧ addr ∈ blockedEdges
      · obtain ⟨rfl, hmem⟩ := hblocked
        exact .inr (hready addr hmem)
      · refine (h.answers addr k).imp (fun hsettled => ⟨hsettled.1, ?_⟩) id
        intro call hcall hkey hawaits
        rcases mem_cons.1 hcall with rfl | hcall
        · exact absurd ⟨hkey.symm, Loop.awaits_start hawaits⟩ hblocked
        · exact hsettled.2 call hcall hkey hawaits

/-- A release hands the blocklist over to a call. -/
theorem Inv.releaseWritelock (h : Inv sys s) (hfree : s.call? caller.receiver = none)
    (hworker : ∀ addr, caller = .cacheServerWorker addr → s.workers addr = .notifying key)
    {source : Nat} {acc : σ}
    (hstep : sys.releaseWritelock s caller key source acc = some s') : Inv sys s' := by
  simp only [System.releaseWritelock, bind_eq_some_iff, pure_eq_some_iff] at hstep
  obtain ⟨⟨w', reply⟩, hrelease, rfl⟩ := hstep
  have hbeacon : CooperationWrapper.Invariant (sys.beacon s key) := h.beacons _
  have hinv := invariant_release hbeacon hrelease
  obtain ⟨hl, -, hblocked, -⟩ := releaseLocalWritelock_spec hbeacon hrelease
  have hset : Inv sys (s.setBeacon (sys.beaconOf key) w') := by
    refine h.of_beacon hinv rfl rfl rfl rfl (fun _ => id) fun addr k hold => .inl ?_
    exact notBlocked_of_update hblocked (fun _ _ heq => nomatch heq) hold
  refine hset.notifyEdgesToFinishBlock hfree hworker (BlockTracker.blocked_nodup hl)
    (fun addr hmem => ?_) acc
  -- an address in the blocklist was not settled before
  rcases h.answers addr key with hsettled | hready
  · exact absurd hmem (hsettled.1 _ hl)
  · exact hready

/-- A step of a call: it waits for no further worker, and no response to another call is taken. -/
theorem Inv.replaceCall (h : Inv sys s) (hcall : call ∈ s.calls)
    (hnarrows : Loop.Narrows call.loop loop)
    (hcalls : s'.calls =
      replace Call.receiver call.receiver { call with loop := loop } s.calls)
    (hbeacons : s'.beacons = s.beacons) (hworkers : s'.workers = s.workers)
    (hresponses : s'.responses = s.responses)
    (hself : ∀ addr, loop.Awaits addr → HasResponse s.finishBlockResponses call addr →
      HasResponse s'.finishBlockResponses call addr)
    (hothers : ∀ other ∈ s.calls, other.receiver ≠ call.receiver → ∀ addr,
      HasResponse s.finishBlockResponses other addr →
        HasResponse s'.finishBlockResponses other addr) : Inv sys s' := by
  have hmem : ∀ other ∈ s'.calls, other = { call with loop := loop } ∨
      other ∈ s.calls ∧ other.receiver ≠ call.receiver := by
    intro other hother
    rw [hcalls] at hother
    exact h.receivers.mem_replace rfl hother
  refine ⟨hbeacons ▸ h.beacons, ?_, fun other hother => ?_, fun other hother addr heq => ?_,
    fun addr k => ?_⟩
  · rw [hcalls]
    exact h.receivers.replace rfl
  · rcases hmem other hother with rfl | ⟨hold, -⟩
    · exact hnarrows.single
    · exact h.loops other hold
  · rw [hworkers]
    rcases hmem other hother with rfl | ⟨hold, -⟩
    · exact h.notifying call hcall addr heq
    · exact h.notifying other hold addr heq
  · rcases h.answers addr k with ⟨hblock, hawaited⟩ | hready
    · refine .inl ⟨?_, fun other hother hkey hawaits => ?_⟩
      · rw [System.beacon, hbeacons]
        exact hblock
      · rcases hmem other hother with rfl | ⟨hold, hne⟩
        · exact hself addr hawaits (hawaited call hcall hkey (hnarrows.awaits addr hawaits))
        · exact hothers other hold hne addr (hawaited other hold hkey hawaits)
    · refine .inr (hready.mono (congrFun hworkers addr) fun _ _ => ?_)
      rw [hresponses]
      exact id

theorem Inv.advanceCall (h : Inv sys s) (hcall : call ∈ s.calls)
    (hstep : sys.advanceCall s call = some s') : Inv sys s' := by
  simp only [System.advanceCall, bind_eq_some_iff, pure_eq_some_iff] at hstep
  obtain ⟨⟨loop, sent⟩, hadvance, rfl⟩ := hstep
  have hnarrows := Loop.narrows_advance rfl (h.loops call hcall) hadvance
  exact h.replaceCall hcall hnarrows rfl rfl rfl rfl (fun _ _ => id) fun _ _ _ _ => id

/-- A call receives a message that is no response of a worker for which it waits after it. -/
theorem Inv.receiveInCall (h : Inv sys s) (hcall : call ∈ s.calls) {msgSeqnum : Nat}
    {response : ControlResponse π}
    (hmessages : ∀ (other : Call σ) addr, HasResponse s.finishBlockResponses other addr →
      HasResponse messages other addr ∨ call.receiver = other.receiver ∧
        msgSeqnum = other.curMsgSeqnum ∧ response.sourceAddr = addr)
    (hstep : sys.receiveInCall { s with finishBlockResponses := messages } call msgSeqnum response =
      some s') : Inv sys s' := by
  simp only [System.receiveInCall, bind_eq_some_iff, pure_eq_some_iff] at hstep
  obtain ⟨loop, hreceive, rfl⟩ := hstep
  obtain ⟨hnarrows, hacknowledged⟩ := Loop.narrows_receive (h.loops call hcall) hreceive
  refine h.replaceCall hcall hnarrows rfl rfl rfl rfl ?_ ?_
  · intro addr hawaits hresponse
    rcases hmessages call addr hresponse with hstill | ⟨-, hseqnum, rfl⟩
    · exact hstill
    · exact absurd hawaits (hacknowledged hseqnum)
  · intro other _ hne addr hresponse
    exact (hmessages other addr hresponse).resolve_right fun hsame => hne hsame.1.symm

/-- A call has returned. -/
theorem Inv.returned (h : Inv sys s) (hcall : call ∈ s.calls) :
    Inv sys (System.afterNotification
      { s with calls := erase Call.receiver call.receiver s.calls } call.caller) := by
  have hsub : ∀ other ∈ erase Call.receiver call.receiver s.calls, other ∈ s.calls :=
    fun other hother => erase_sublist.mem hother
  have herased : Inv sys
      { s with calls := erase Call.receiver call.receiver s.calls } := by
    refine ⟨h.beacons, h.receivers.sublist erase_sublist,
      fun other hother => h.loops other (hsub other hother),
      fun other hother => h.notifying other (hsub other hother), fun addr k => ?_⟩
    refine (h.answers addr k).imp_left fun hsettled => ⟨hsettled.1, fun other hother => ?_⟩
    exact hsettled.2 other (hsub other hother)
  refine herased.afterNotification ?_ fun addr heq => ?_
  · exact (find_erase h.receivers).trans (if_pos rfl)
  · have hworker : s.workers addr = .notifying call.key := h.notifying call hcall addr heq
    exact congrArg WorkerState.currentKey hworker

/-- A FinishBlockResponse is lost: its call does not depend on it. -/
theorem Inv.loseFinishBlockResponse (h : Inv sys s) {m : FinishBlockResponse π}
    (hm : s.finishBlockResponses[i]? = some m)
    (hmeets : ∀ call ∈ s.calls, m.receiver = call.receiver → m.seqnum = call.curMsgSeqnum →
      call.loop.Awaits m.response.sourceAddr →
      HasResponse (s.finishBlockResponses.eraseIdx i) call m.response.sourceAddr ∨
        Ready s m.response.sourceAddr call.key) :
    Inv sys { s with finishBlockResponses := s.finishBlockResponses.eraseIdx i } := by
  refine ⟨h.beacons, h.receivers, h.loops, h.notifying, fun addr key => ?_⟩
  by_cases hready : Ready s addr key
  · exact .inr hready
  · obtain ⟨hblock, hawaited⟩ := (h.answers addr key).resolve_right hready
    refine .inl ⟨hblock, fun call hcall hkey hawaits => ?_⟩
    rcases (hawaited call hcall hkey hawaits).eraseIdx hm with hstill | ⟨hreceiver, hseqnum, rfl⟩
    · exact hstill
    · refine (hmeets call hcall hreceiver hseqnum hawaits).resolve_right fun hready' => ?_
      exact hready (hkey ▸ hready')

end Calls

/-! ## Runs -/

/-- One step that meets the condition keeps the invariant. -/
theorem Inv.next (h : Inv sys s) {action : Action σ π} (hmeets : Meets sys s action)
    (hstep : sys.next s action = some s') : Inv sys s' := by
  cases action with
  | startRequest kind addr key =>
    obtain ⟨hidle, hstep⟩ := require_bind_iff.1 hstep
    obtain ⟨-, hstep⟩ := require_bind_iff.1 hstep
    obtain ⟨-, hstep⟩ := require_bind_iff.1 hstep
    cases hstep
    refine h.sendFresh (h.not_caller _ fun key' => ?_) (mayLeave_of_currentKey ?_) kind key
    · rw [hidle]
      exact WorkerState.noConfusion
    · rw [hidle]
      rfl
  | startRelease addr =>
    simp only [System.next] at hstep
    split at hstep
    · next key hw =>
      obtain ⟨-, hstep⟩ := require_bind_iff.1 hstep
      cases hstep
      refine h.sendFresh (h.not_caller _ fun key' => ?_) (mayLeave_of_currentKey ?_) _ key
      · rw [hw]
        exact WorkerState.noConfusion
      · rw [hw]
        rfl
    · cases hstep
  | timeout addr isNodeRunning => exact h.timeout hmeets hstep
  | deliverRequest i draw acc =>
    obtain ⟨request, hget, hstep⟩ := bind_eq_some_iff.1 hstep
    obtain ⟨hfree, hstep⟩ := require_bind_iff.1 hstep
    have henters := hmeets request hget
    rw [System.processRequest] at hstep
    split at hstep
    · next hkind => exact h.processDirectoryLookupRequest hkind henters hstep
    · next hkind => exact h.processAcquireWritelockRequest hkind henters hstep
    · have herased : Inv sys { s with requests := s.requests.eraseIdx i } :=
        h.of_responses rfl rfl rfl rfl fun _ _ => .inr
      refine herased.releaseWritelock ?_ (fun addr heq => ?_) hstep
      · exact hfree
      · cases heq
  | deliverResponse i =>
    obtain ⟨response, hget, hstep⟩ := bind_eq_some_iff.1 hstep
    exact h.receiveResponse hget (hmeets response hget) hstep
  | finishBlock i needLookupBeaconDirectory content =>
    obtain ⟨request, hget, hstep⟩ := bind_eq_some_iff.1 hstep
    exact h.blockForWritesByInterruption (hmeets request hget) hstep
  | acquireLocal addr key =>
    obtain ⟨hidle, hstep⟩ := require_bind_iff.1 hstep
    obtain ⟨-, hstep⟩ := require_bind_iff.1 hstep
    exact h.acquireLocalWritelock hidle hstep
  | releaseLocal addr acc =>
    simp only [System.next] at hstep
    split at hstep
    · next key hw =>
      obtain ⟨-, hstep⟩ := require_bind_iff.1 hstep
      have hcaller := h.not_caller addr fun key' => by
        rw [hw]
        exact WorkerState.noConfusion
      have hnone : (s.workers addr).currentKey = none := by
        rw [hw]
        rfl
      have hset := h.setWorker hcaller (mayLeave_of_currentKey hnone) (.notifying key)
      refine hset.releaseWritelock ?_ (fun addr' heq => ?_) hstep
      · refine find_eq_none_iff.2 fun hmem => ?_
        obtain ⟨call, hcall, heq⟩ := mem_map.1 hmem
        refine hcaller call hcall ?_
        rw [Call.receiver] at heq
        cases hc : call.caller with
        | beaconServer edgeIdx request =>
          rw [hc] at heq
          cases heq
        | cacheServerWorker addr' =>
          rw [hc] at heq
          cases heq
          rfl
      · cases heq
        rw [State.workers_setWorker, update_self]
    · cases hstep
  | updateDirectory key sourceEdgeIdx isAdmit =>
    obtain ⟨⟨w', reply⟩, hupdate, hstep⟩ := bind_eq_some_iff.1 hstep
    cases hstep
    exact h.updateDirectory hupdate
  | advance receiver =>
    obtain ⟨call, hcall, hstep⟩ := bind_eq_some_iff.1 hstep
    exact h.advanceCall (mem_of_find hcall) hstep
  | callTimeout receiver isNodeRunning =>
    obtain ⟨call, hcall, hstep⟩ := bind_eq_some_iff.1 hstep
    obtain ⟨loop, htimeout, hstep⟩ := bind_eq_some_iff.1 hstep
    cases hstep
    have hmem := mem_of_find hcall
    exact h.replaceCall hmem (Loop.narrows_timeout (h.loops call hmem) htimeout) rfl rfl rfl rfl
      (fun _ _ => id) fun _ _ _ _ => id
  | recv i =>
    obtain ⟨m, hget, hstep⟩ := bind_eq_some_iff.1 hstep
    obtain ⟨call, hcall, hstep⟩ := bind_eq_some_iff.1 hstep
    refine h.receiveInCall (mem_of_find hcall) (fun other addr hresponse => ?_) hstep
    rw [key_of_find hcall]
    exact hresponse.eraseIdx hget
  | foreign receiver msgSeqnum response =>
    obtain ⟨call, hcall, hstep⟩ := bind_eq_some_iff.1 hstep
    obtain ⟨-, hstep⟩ := require_bind_iff.1 hstep
    exact h.receiveInCall (mem_of_find hcall) (fun _ _ => .inl) hstep
  | returned receiver =>
    obtain ⟨call, hcall, hstep⟩ := bind_eq_some_iff.1 hstep
    obtain ⟨-, hstep⟩ := require_bind_iff.1 hstep
    cases hstep
    obtain rfl := key_of_find hcall
    exact h.returned (mem_of_find hcall)
  | loseRequest i =>
    obtain ⟨-, hstep⟩ := require_bind_iff.1 hstep
    cases hstep
    exact h.of_responses rfl rfl rfl rfl fun _ _ => .inr
  | loseResponse i =>
    obtain ⟨hlt, hstep⟩ := require_bind_iff.1 hstep
    cases hstep
    have hget := getElem?_eq_getElem hlt
    exact h.eraseResponse hget (hmeets _ hget)
  | loseFinishBlockRequest i =>
    obtain ⟨-, hstep⟩ := require_bind_iff.1 hstep
    cases hstep
    exact h.of_responses rfl rfl rfl rfl fun _ _ => .inr
  | loseFinishBlockResponse i =>
    obtain ⟨hlt, hstep⟩ := require_bind_iff.1 hstep
    cases hstep
    have hget := getElem?_eq_getElem hlt
    exact h.loseFinishBlockResponse hget (hmeets _ hget)

/-- A worker that is blocked on the key answers a FinishBlockRequest for it. -/
theorem answers_finishBlockRequest {request : FinishBlockRequest}
    (hblocked : IsBlocked s request.addr request.key)
    (hget : s.finishBlockRequests[i]? = some request) (needLookupBeaconDirectory : Bool)
    (content : π) :
    ∃ s', sys.next s (.finishBlock i needLookupBeaconDirectory content) = some s' ∧
      sys.finishBlockResponse request content ∈ s'.finishBlockResponses := by
  obtain ⟨kind, hw⟩ : ∃ kind, s.workers request.addr = .blocked kind request.key := by
    rw [IsBlocked] at hblocked
    cases hw : s.workers request.addr with
    | blocked kind key =>
      rw [hw] at hblocked
      cases hblocked
      exact ⟨kind, rfl⟩
    | _ =>
      rw [hw] at hblocked
      cases hblocked
  simp only [System.next, hget, some_bind, System.blockForWritesByInterruption, hw, if_pos]
  split
  · exact ⟨_, rfl, mem_cons_self⟩
  · exact ⟨_, rfl, mem_cons_self⟩

/-- In every run whose steps meet the condition: for whomever a call still waits, the worker is
blocked on the key, or a response that blocks it is in flight to it, or its FinishBlockResponse for
the current seqnum is in flight to the caller; and a blocked worker answers the next
FinishBlockRequest for its key. -/
theorem notified_worker_answers (sys : System σ π) {tr : List (Action σ π × Unit)}
    {s : State σ π} (h : Runs sys.step (Meets sys) initial tr s) :
    (∀ call ∈ s.calls, ∀ addr, call.loop.Awaits addr →
      IsBlocked s addr call.key ∨ WillBlock s addr call.key ∨
        HasResponse s.finishBlockResponses call addr) ∧
    ∀ i request, s.finishBlockRequests[i]? = some request →
      IsBlocked s request.addr request.key → ∀ needLookupBeaconDirectory content,
        ∃ s', sys.next s (.finishBlock i needLookupBeaconDirectory content) = some s' ∧
          sys.finishBlockResponse request content ∈ s'.finishBlockResponses := by
  have hinv : Inv sys s := by
    refine h.invariant inv_initial fun hbefore hmeets hstep => ?_
    obtain ⟨s', hnext, heq⟩ := Option.map_eq_some_iff.1 hstep
    cases heq
    exact hbefore.next hmeets hnext
  refine ⟨fun call hcall addr hawaits => ?_, fun i request hget hblocked => ?_⟩
  · rcases hinv.answers addr call.key with hsettled | hblocked | hwill
    · exact .inr (.inr (hsettled.2 call hcall rfl hawaits))
    · exact .inl hblocked
    · exact .inr (.inl hwill)
  · exact answers_finishBlockRequest hblocked hget

/-! ## A lost response -/

/-- One worker for each edge, and edge `0` is the beacon of all keys. -/
def oneBeacon : System Unit Unit where
  edgeOf := fun addr => addr.port.toNat - 5000
  beaconOf := fun _ => 0
  edges := fun edgeIdx => { plainEdge with nodeIdx := edgeIdx }

def workerOf (edgeIdx : Nat) : NetworkAddr := ⟨[49], UInt16.ofNat (5000 + edgeIdx)⟩

/-- The worker of edge `1` looks a key up while the worker of edge `0` writes it; it is notified,
and looks the key up again. -/
def lookupDuringWrite : List (Action Unit Unit) :=
  [.updateDirectory ⟨[7]⟩ 0 true, .acquireLocal (workerOf 0) ⟨[7]⟩,
    .startRequest .directoryLookup (workerOf 1) ⟨[7]⟩, .deliverRequest 0 0 (), .deliverResponse 0,
    .releaseLocal (workerOf 0) (), .advance (.cacheServerWorker (workerOf 0)),
    .advance (.cacheServerWorker (workerOf 0)), .finishBlock 0 true ()]

/-- The caller waits for the worker, which has left. -/
theorem notified_worker_left :
    ∃ tr s, Runs oneBeacon.step anyAction initial tr s ∧
      ∃ call ∈ s.calls, call.loop.Awaits (workerOf 1) ∧ ¬ IsBlocked s (workerOf 1) call.key ∧
        ¬ WillBlock s (workerOf 1) call.key ∧
          ¬ HasResponse s.finishBlockResponses call (workerOf 1) := by
  have hexec : (exec oneBeacon.step anyAction initial
      (lookupDuringWrite ++ [.loseFinishBlockResponse 0])).any (fun s =>
        decide (∃ call ∈ s.calls, call.loop.Awaits (workerOf 1) ∧
          ¬ IsBlocked s (workerOf 1) call.key ∧ ¬ WillBlock s (workerOf 1) call.key ∧
            ¬ HasResponse s.finishBlockResponses call (workerOf 1))) = true := by
    decide +kernel
  obtain ⟨tr, s, hrun, -, hs⟩ := exists_runs_of_any hexec
  exact ⟨tr, s, hrun, of_decide_eq_true hs⟩

theorem notified_worker_answers_lookup :
    ∃ tr s, Runs oneBeacon.step (Meets oneBeacon) initial tr s ∧
      ∃ call ∈ s.calls, call.loop.Awaits (workerOf 1) ∧
        (IsBlocked s (workerOf 1) call.key ∨ WillBlock s (workerOf 1) call.key ∨
          HasResponse s.finishBlockResponses call (workerOf 1)) := by
  have hexec : (exec oneBeacon.step (Meets oneBeacon) initial lookupDuringWrite).any (fun s =>
      decide (∃ call ∈ s.calls, call.loop.Awaits (workerOf 1))) = true := by
    decide +kernel
  obtain ⟨tr, s, hrun, -, hs⟩ := exists_runs_of_any hexec
  obtain ⟨call, hcall, hawaits⟩ := of_decide_eq_true hs
  exact ⟨tr, s, hrun, call, hcall, hawaits,
    (notified_worker_answers oneBeacon hrun).1 call hcall _ hawaits⟩

end FinishBlockProtocol

end Covered.Edge
