import Covered.Cooperation.WriteLockProtocol

/-!
# Mutual exclusion of the write-lock protocol

The invariant of the protocol under the condition `Meets`, one lemma for each kind of step, and the
theorem `writelock_mutual_exclusion` over all runs that meet the condition. Without it the theorem
fails: `duplicate_release_breaks_exclusion` is a run in which the second copy of a release request
frees the lock of another worker, after which a third worker acquires it.
-/

set_option autoImplicit false

namespace Covered.Cooperation.WriteLockProtocol

open Common Lib Lib.Execution Function List
open CooperationWrapper (Operation)

section Safety

variable (edgeOf : NetworkAddr → Nat) (beaconEdgeIdx : Nat)

/-! ## The invariant -/

/-- What holds in every state of a run that meets the condition. The lock of a key is granted iff
the key is being written; who believes to hold a lock owns it; and the messages in flight agree with
the worker that waits for them. -/
structure Invariant (s : State) : Prop where
  beacon : CooperationWrapper.Invariant s.beacon
  owner_iff : ∀ key, s.owner key = none ↔ s.beacon.blocked key = none
  holding : ∀ addr key, s.workers addr = .holding key → s.owner key = some (.worker addr)
  releasing : ∀ addr key seqnum, s.workers addr = .releasing key seqnum →
    (addr, seqnum) ∉ s.released → s.owner key = some (.worker addr)
  local_holding : ∀ idx key, s.localWorkers idx = some key →
    s.owner key = some (.localWorker idx)
  release_request : ∀ r ∈ s.requests, r.kind = .releaseWritelock →
    (r.addr, r.seqnum) ∈ s.released ∨ s.workers r.addr = .releasing r.key r.seqnum
  release_response : ∀ addr seqnum, Response.releaseWritelock addr seqnum ∈ s.responses →
    (addr, seqnum) ∈ s.released
  acquire_request : ∀ r ∈ s.requests, r.kind = .acquireWritelock →
    ∀ key, s.workers r.addr = .acquiring key r.seqnum → key = r.key
  granted : ∀ addr key seqnum, Response.acquireWritelock addr key seqnum .kSuccess ∈ s.responses →
    ∀ k, s.workers addr = .acquiring k seqnum → k = key ∧ s.owner key = some (.worker addr)
  fresh_request : ∀ r ∈ s.requests, r.seqnum < s.nodeMsgSeqnum (edgeOf r.addr)
  fresh_response : ∀ addr key seqnum lockResult,
    Response.acquireWritelock addr key seqnum lockResult ∈ s.responses →
      seqnum < s.nodeMsgSeqnum (edgeOf addr)
  fresh_released : ∀ addr seqnum, (addr, seqnum) ∈ s.released →
    seqnum < s.nodeMsgSeqnum (edgeOf addr)
  fresh_worker : ∀ kind addr key seqnum, s.workers addr = waitingFor kind key seqnum →
    seqnum < s.nodeMsgSeqnum (edgeOf addr)

theorem invariant_initial : Invariant edgeOf initial where
  beacon := CooperationWrapper.invariant_initial
  owner_iff := by
    intro key
    simp [initial, CooperationWrapper.blocked, BlockTracker.blocked]
  holding := by
    intro addr key h
    simp [initial] at h
  releasing := by
    intro addr key seqnum h
    simp [initial] at h
  local_holding := by
    intro idx key h
    simp [initial] at h
  release_request := by simp [initial]
  release_response := by simp [initial]
  acquire_request := by simp [initial]
  granted := by simp [initial]
  fresh_request := by simp [initial]
  fresh_response := by simp [initial]
  fresh_released := by simp [initial]
  fresh_worker := by
    intro kind addr key seqnum h
    cases kind <;> simp [initial, waitingFor] at h

variable {edgeOf} {beaconEdgeIdx} {s : State}

variable {responses : List Response} {q idx : Nat}

/-- Messages may vanish. -/
theorem Invariant.of_fewer (hinv : Invariant edgeOf s) {requests : List Request}
    (hreq : requests ⊆ s.requests) (hrsp : responses ⊆ s.responses) :
    Invariant edgeOf { s with requests := requests, responses := responses } :=
  { hinv with
    release_request := fun r hr => hinv.release_request r (hreq hr)
    release_response := fun addr seqnum hr => hinv.release_response addr seqnum (hrsp hr)
    acquire_request := fun r hr => hinv.acquire_request r (hreq hr)
    granted := fun addr key seqnum hr => hinv.granted addr key seqnum (hrsp hr)
    fresh_request := fun r hr => hinv.fresh_request r (hreq hr)
    fresh_response := fun addr key seqnum result hr =>
      hinv.fresh_response addr key seqnum result (hrsp hr) }

variable {request : Request}

/-- A worker that waits for a response may send its request again. -/
theorem Invariant.resend (hinv : Invariant edgeOf s)
    (hworker : s.workers request.addr = waitingFor request.kind request.key request.seqnum) :
    Invariant edgeOf { s with requests := request :: s.requests } :=
  { hinv with
    release_request := by
      intro r hr hkind
      rcases mem_cons.1 hr with rfl | hr
      · rw [hkind] at hworker
        exact .inr hworker
      · exact hinv.release_request r hr hkind
    acquire_request := by
      intro r hr hkind key hkey
      rcases mem_cons.1 hr with rfl | hr
      · rw [hkind] at hworker
        have heq := hworker.symm.trans hkey
        simp only [waitingFor, WorkerState.acquiring.injEq] at heq
        exact heq.1.symm
      · exact hinv.acquire_request r hr hkind key hkey
    fresh_request := by
      intro r hr
      rcases mem_cons.1 hr with rfl | hr
      · exact hinv.fresh_worker _ _ _ _ hworker
      · exact hinv.fresh_request r hr }

theorem waitingFor_ne_holding (kind : RequestKind) (key k : Key) (seqnum : Nat) :
    waitingFor kind key seqnum ≠ .holding k := by
  cases kind <;> simp [waitingFor]

variable {kind : RequestKind} {key : Key} {seqnum : Nat}

theorem waitingFor_eq_acquiring {k : Key}
    (h : waitingFor kind key seqnum = .acquiring k q) : k = key ∧ q = seqnum := by
  cases kind with
  | acquireWritelock =>
    simp only [waitingFor, WorkerState.acquiring.injEq] at h
    exact ⟨h.1.symm, h.2.symm⟩
  | releaseWritelock => simp [waitingFor] at h

theorem waitingFor_eq_releasing {k : Key} (h : waitingFor kind key seqnum = .releasing k q) :
    kind = .releaseWritelock ∧ k = key ∧ q = seqnum := by
  cases kind with
  | acquireWritelock => simp [waitingFor] at h
  | releaseWritelock =>
    simp only [waitingFor, WorkerState.releasing.injEq] at h
    exact ⟨rfl, h.1.symm, h.2.symm⟩

variable {addr : NetworkAddr}

/-- A worker that does not wait for a release may send a fresh request; a release must be of a lock
that it owns. -/
theorem Invariant.sendFresh (hinv : Invariant edgeOf s)
    (hidle : ∀ k q, s.workers addr ≠ .releasing k q)
    (howner : kind = .releaseWritelock → s.owner key = some (.worker addr)) :
    Invariant edgeOf (sendFresh edgeOf s kind addr key) := by
  have hmono : ∀ e, s.nodeMsgSeqnum e ≤ update s.nodeMsgSeqnum (edgeOf addr)
      (s.nodeMsgSeqnum (edgeOf addr) + 1) e := by
    intro e
    rw [update_apply]
    split
    · next he => rw [he]; omega
    · exact Nat.le_refl _
  have hself : s.nodeMsgSeqnum (edgeOf addr) < update s.nodeMsgSeqnum (edgeOf addr)
      (s.nodeMsgSeqnum (edgeOf addr) + 1) (edgeOf addr) := by
    rw [update_self]
    omega
  exact
    { beacon := hinv.beacon
      owner_iff := hinv.owner_iff
      local_holding := hinv.local_holding
      release_response := hinv.release_response
      holding := by
        intro a k h
        simp only [WriteLockProtocol.sendFresh, update_apply] at h
        split at h
        · exact absurd h (waitingFor_ne_holding _ _ _ _)
        · exact hinv.holding a k h
      releasing := by
        intro a k q h hq
        simp only [WriteLockProtocol.sendFresh, update_apply] at h
        split at h
        · next ha =>
          obtain ⟨hkind, rfl, -⟩ := waitingFor_eq_releasing h
          rw [ha]
          exact howner hkind
        · exact hinv.releasing a k q h hq
      release_request := by
        intro r hr hkind
        simp only [WriteLockProtocol.sendFresh, update_apply]
        rcases mem_cons.1 hr with rfl | hr
        · simp only at hkind
          rw [if_pos rfl, hkind]
          exact .inr rfl
        · rcases hinv.release_request r hr hkind with hdone | hwait
          · exact .inl hdone
          · by_cases ha : r.addr = addr
            · rw [ha] at hwait
              exact absurd hwait (hidle _ _)
            · rw [if_neg ha]
              exact .inr hwait
      acquire_request := by
        intro r hr hkind k h
        simp only [WriteLockProtocol.sendFresh, update_apply] at h
        rcases mem_cons.1 hr with rfl | hr
        · rw [if_pos rfl] at h
          exact (waitingFor_eq_acquiring h).1
        · split at h
          · next ha =>
            have hlt := hinv.fresh_request r hr
            have hq := (waitingFor_eq_acquiring h).2
            rw [ha, hq] at hlt
            exact absurd hlt (Nat.lt_irrefl _)
          · exact hinv.acquire_request r hr hkind k h
      granted := by
        intro a k q hr k' h
        simp only [WriteLockProtocol.sendFresh, update_apply] at h
        split at h
        · next ha =>
          have hlt := hinv.fresh_response a k q _ hr
          have hq := (waitingFor_eq_acquiring h).2
          rw [ha, hq] at hlt
          exact absurd hlt (Nat.lt_irrefl _)
        · exact hinv.granted a k q hr k' h
      fresh_request := by
        intro r hr
        rcases mem_cons.1 hr with rfl | hr
        · exact hself
        · exact Nat.lt_of_lt_of_le (hinv.fresh_request r hr) (hmono _)
      fresh_response := fun a k q result hr =>
        Nat.lt_of_lt_of_le (hinv.fresh_response a k q result hr) (hmono _)
      fresh_released := fun a q hr =>
        Nat.lt_of_lt_of_le (hinv.fresh_released a q hr) (hmono _)
      fresh_worker := by
        intro kind' a k q h
        simp only [WriteLockProtocol.sendFresh, update_apply] at h
        split at h
        · next ha =>
          have hq : q = s.nodeMsgSeqnum (edgeOf addr) := by
            cases kind' with
            | acquireWritelock => exact (waitingFor_eq_acquiring h).2
            | releaseWritelock => exact (waitingFor_eq_releasing h).2.2
          rw [ha, hq]
          exact hself
        · exact Nat.lt_of_lt_of_le (hinv.fresh_worker kind' a k q h) (hmono _) }

/-- A worker that stops waiting, and holds a lock only if it owns it. -/
theorem Invariant.setWorker (hinv : Invariant edgeOf s) {state : WorkerState}
    (hwait : ∀ kind k q, state ≠ waitingFor kind k q)
    (hhold : ∀ k, state = .holding k → s.owner k = some (.worker addr))
    (hdone : ∀ k q, s.workers addr = .releasing k q → (addr, q) ∈ s.released) :
    Invariant edgeOf { s with workers := update s.workers addr state } :=
  { hinv with
    holding := by
      intro a k h
      simp only [update_apply] at h
      split at h
      · next ha => rw [ha]; exact hhold k h
      · exact hinv.holding a k h
    releasing := by
      intro a k q h
      simp only [update_apply] at h
      split at h
      · exact absurd h (hwait .releaseWritelock k q)
      · exact hinv.releasing a k q h
    release_request := by
      intro r hr hkind
      simp only [update_apply]
      rcases hinv.release_request r hr hkind with h | h
      · exact .inl h
      · by_cases ha : r.addr = addr
        · rw [ha] at h ⊢
          exact .inl (hdone _ _ h)
        · rw [if_neg ha]
          exact .inr h
    acquire_request := by
      intro r hr hkind k h
      simp only [update_apply] at h
      split at h
      · exact absurd h (hwait .acquireWritelock k _)
      · exact hinv.acquire_request r hr hkind k h
    granted := by
      intro a k q hr k' h
      simp only [update_apply] at h
      split at h
      · exact absurd h (hwait .acquireWritelock k' q)
      · exact hinv.granted a k q hr k' h
    fresh_worker := by
      intro kind a k q h
      simp only [update_apply] at h
      split at h
      · exact absurd h (hwait kind k q)
      · exact hinv.fresh_worker kind a k q h }

/-- Receiving a response that was in flight. -/
theorem Invariant.acceptResponse (hinv : Invariant edgeOf s) {response : Response}
    (hmem : response ∈ s.responses)
    (hrsp : responses ⊆ s.responses) :
    Invariant edgeOf (acceptResponse { s with responses := responses } response) := by
  have hfew : Invariant edgeOf { s with responses := responses } :=
    hinv.of_fewer (List.Subset.refl s.requests) hrsp
  cases response with
  | acquireWritelock addr key seqnum lockResult =>
    simp only [WriteLockProtocol.acceptResponse]
    split
    · next k current hworker =>
      split
      · next hseq =>
        subst hseq
        refine hfew.setWorker ?_ ?_ ?_
        · intro kind k' q
          cases lockResult <;> cases kind <;> simp [afterAcquire, waitingFor]
        · intro k' h
          cases lockResult with
          | kSuccess =>
            simp only [afterAcquire, WorkerState.holding.injEq] at h
            obtain ⟨rfl, howner⟩ := hinv.granted addr key seqnum hmem k hworker
            rw [← h]
            exact howner
          | kFailure => simp [afterAcquire] at h
          | kNoneed => simp [afterAcquire] at h
        · intro k' q h
          rw [hworker] at h
          cases h
      · exact hfew
    · exact hfew
  | releaseWritelock addr seqnum =>
    simp only [WriteLockProtocol.acceptResponse]
    split
    · next k current hworker =>
      split
      · next hseq =>
        subst hseq
        refine hfew.setWorker ?_ ?_ ?_
        · intro kind k' q
          cases kind <;> simp [waitingFor]
        · intro k' h
          cases h
        · intro k' q h
          rw [hworker] at h
          simp only [WorkerState.releasing.injEq] at h
          rw [← h.2]
          exact hinv.release_response addr seqnum hmem
      · exact hfew
    · exact hfew

/-! ## Steps of the beacon -/

variable {beacon : CooperationWrapper}

/-- The beacon may change as long as the same keys are being written. -/
theorem Invariant.of_beacon (hinv : Invariant edgeOf s)
    (hbeacon : CooperationWrapper.Invariant beacon)
    (hblocked : ∀ key, beacon.blocked key = none ↔ s.beacon.blocked key = none) :
    Invariant edgeOf { s with beacon := beacon } :=
  { hinv with
    beacon := hbeacon
    owner_iff := fun key => (hinv.owner_iff key).trans (hblocked key).symm }

/-- The lock of a key that is not being written may be granted. -/
theorem Invariant.grant (hinv : Invariant edgeOf s) (holder : Holder)
    (hbeacon : CooperationWrapper.Invariant beacon) (hnone : s.beacon.blocked key = none)
    (hblocked : beacon.blocked = update s.beacon.blocked key (some [])) :
    Invariant edgeOf
      { s with beacon := beacon, owner := update s.owner key (some holder) } := by
  have hfree : s.owner key = none := (hinv.owner_iff key).2 hnone
  have hkeep : ∀ k h, s.owner k = some h →
      update s.owner key (some holder) k = some h := by
    intro k h hk
    have hne : k ≠ key := by
      rintro rfl
      rw [hfree] at hk
      cases hk
    rw [update_of_ne hne, hk]
  exact
    { hinv with
      beacon := hbeacon
      owner_iff := by
        intro k
        rw [hblocked]
        by_cases hk : k = key
        · subst hk
          simp
        · simp only [update_of_ne hk]
          exact hinv.owner_iff k
      holding := fun a k h => hkeep _ _ (hinv.holding a k h)
      releasing := fun a k q h hq => hkeep _ _ (hinv.releasing a k q h hq)
      local_holding := fun i k h => hkeep _ _ (hinv.local_holding i k h)
      granted := fun a k q hr k' h =>
        ⟨(hinv.granted a k q hr k' h).1, hkeep _ _ (hinv.granted a k q hr k' h).2⟩ }

/-- The response to an acquisition, which says success only to the owner. -/
theorem Invariant.respondAcquire (hinv : Invariant edgeOf s) {lockResult : LockResult}
    (hgranted : lockResult = .kSuccess → ∀ k, s.workers addr = .acquiring k seqnum →
      k = key ∧ s.owner key = some (.worker addr)) (hfresh : seqnum < s.nodeMsgSeqnum (edgeOf addr))
    :
    Invariant edgeOf { s with
      responses := .acquireWritelock addr key seqnum lockResult :: s.responses } :=
  { hinv with
    release_response := by
      intro a q hr
      rcases mem_cons.1 hr with h | h
      · cases h
      · exact hinv.release_response a q h
    granted := by
      intro a k q hr
      rcases mem_cons.1 hr with h | h
      · cases h
        exact hgranted rfl
      · exact hinv.granted a k q h
    fresh_response := by
      intro a k q result hr
      rcases mem_cons.1 hr with h | h
      · cases h
        exact hfresh
      · exact hinv.fresh_response a k q result h }

variable {s' : State}

theorem Invariant.processAcquire (hinv : Invariant edgeOf s)
    (hkey : ∀ k, s.workers request.addr = .acquiring k request.seqnum → k = request.key)
    (hfresh : request.seqnum < s.nodeMsgSeqnum (edgeOf request.addr))
    (h : processAcquireWritelockRequest edgeOf s request = some s') : Invariant edgeOf s' := by
  obtain ⟨⟨beacon, reply⟩, hacquire, rfl⟩ := Option.map_eq_some_iff.1 h
  have hstep : CooperationWrapper.step s.beacon (.acquireByBeaconServer request.key
      (edgeOf request.addr) request.addr) = some (beacon, .acquire reply) := by
    simp [CooperationWrapper.step, hacquire]
  have hbeacon := CooperationWrapper.invariant_step hinv.beacon hstep
  rcases CooperationWrapper.acquireByBeaconServer_spec hinv.beacon hacquire with
    ⟨hresult, rfl⟩ | ⟨hresult, hnone, -, hblocked, -⟩ | ⟨hresult, -, -, l, hl, -, hblocked⟩
  · simp only [hresult, reduceCtorEq, if_false]
    exact hinv.respondAcquire (by simp) hfresh
  · simp only [hresult, if_true]
    refine (hinv.grant _ hbeacon hnone hblocked).respondAcquire (fun _ k hk => ?_) hfresh
    exact ⟨hkey k hk, update_self _ _ _⟩
  · simp only [hresult, reduceCtorEq, if_false]
    refine (hinv.of_beacon hbeacon fun k => ?_).respondAcquire (by simp) hfresh
    rw [hblocked]
    by_cases hk : k = request.key
    · subst hk
      simp [hl]
    · rw [update_of_ne hk]

/-- The lock of a key may be freed when its owner stops to hold it in the same step. -/
theorem Invariant.free (hinv : Invariant edgeOf s) {localWorkers : Nat → Option Key}
    {released : List (NetworkAddr × Nat)} {finishBlocks : List (NetworkAddr × Key)}
    (hbeacon : CooperationWrapper.Invariant beacon)
    (hblocked : beacon.blocked = update s.beacon.blocked key none)
    (hholding : ∀ addr, s.owner key = some (.worker addr) → s.workers addr ≠ .holding key ∧
      (∀ q, s.workers addr ≠ .acquiring key q) ∧
      ∀ q, s.workers addr = .releasing key q → (addr, q) ∈ released)
    (hlocal : ∀ idx k, localWorkers idx = some k → s.localWorkers idx = some k ∧ k ≠ key)
    (hreleased : s.released ⊆ released)
    (hfresh : ∀ addr q, (addr, q) ∈ released → q < s.nodeMsgSeqnum (edgeOf addr)) :
    Invariant edgeOf { s with
      beacon := beacon, localWorkers := localWorkers, released := released
      finishBlocks := finishBlocks, owner := update s.owner key none } where
  beacon := hbeacon
  owner_iff := by
    intro k
    rw [hblocked]
    by_cases hk : k = key
    · subst hk
      simp
    · simp only [update_of_ne hk]
      exact hinv.owner_iff k
  holding := by
    intro a k h
    have howner := hinv.holding a k h
    have hk : k ≠ key := by
      rintro rfl
      exact (hholding a howner).1 h
    simpa only [update_of_ne hk] using howner
  releasing := by
    intro a k q h hq
    have howner := hinv.releasing a k q h fun hr => hq (hreleased hr)
    have hk : k ≠ key := by
      rintro rfl
      exact hq ((hholding a howner).2.2 q h)
    simpa only [update_of_ne hk] using howner
  local_holding := by
    intro i k h
    obtain ⟨hold, hk⟩ := hlocal i k h
    simpa only [update_of_ne hk] using hinv.local_holding i k hold
  release_request := fun r hr hkind =>
    (hinv.release_request r hr hkind).imp (fun h => hreleased h) id
  release_response := fun a q hr => hreleased (hinv.release_response a q hr)
  acquire_request := hinv.acquire_request
  granted := by
    intro a k q hr k' h
    obtain ⟨rfl, howner⟩ := hinv.granted a k q hr k' h
    have hk : k' ≠ key := by
      rintro rfl
      exact (hholding a howner).2.1 q h
    exact ⟨rfl, by simpa only [update_of_ne hk] using howner⟩
  fresh_request := hinv.fresh_request
  fresh_response := hinv.fresh_response
  fresh_released := hfresh
  fresh_worker := hinv.fresh_worker

theorem Invariant.processRelease (hinv : Invariant edgeOf s)
    (hworker : s.workers request.addr = .releasing request.key request.seqnum)
    (howner : s.owner request.key = some (.worker request.addr))
    (h : processReleaseWritelockRequest edgeOf s request = some s') : Invariant edgeOf s' := by
  obtain ⟨⟨beacon, reply⟩, hrelease, rfl⟩ := Option.map_eq_some_iff.1 h
  obtain ⟨-, -, hblocked, -⟩ := CooperationWrapper.releaseLocalWritelock_spec hinv.beacon hrelease
  have hfree : Invariant edgeOf { s with
      beacon := beacon, released := (request.addr, request.seqnum) :: s.released
      finishBlocks := reply.blockedEdges.map (fun addr => (addr, request.key)) ++ s.finishBlocks
      owner := update s.owner request.key none } := by
    refine hinv.free (CooperationWrapper.invariant_release hinv.beacon hrelease) hblocked ?_ ?_
      (subset_cons_self _ _) ?_
    · intro addr haddr
      rw [howner] at haddr
      cases haddr
      rw [hworker]
      refine ⟨by simp, by simp, fun q hq => ?_⟩
      simp only [WorkerState.releasing.injEq, true_and] at hq
      rw [hq]
      exact mem_cons_self
    · intro idx k hk
      refine ⟨hk, ?_⟩
      rintro rfl
      have := hinv.local_holding idx _ hk
      rw [howner] at this
      cases this
    · intro addr q hq
      rcases mem_cons.1 hq with heq | hmem
      · obtain ⟨rfl, rfl⟩ := Prod.mk.inj heq
        exact hinv.fresh_worker .releaseWritelock _ _ _ hworker
      · exact hinv.fresh_released addr q hmem
  refine { hfree with release_response := ?_, granted := ?_, fresh_response := ?_ }
  · intro a q hr
    rcases mem_cons.1 hr with heq | hmem
    · cases heq
      exact mem_cons_self
    · exact hfree.release_response a q hmem
  · intro a k q hr
    rcases mem_cons.1 hr with heq | hmem
    · cases heq
    · exact hfree.granted a k q hmem
  · intro a k q result hr
    rcases mem_cons.1 hr with heq | hmem
    · cases heq
    · exact hfree.fresh_response a k q result hmem

theorem Invariant.acquireLocal (hinv : Invariant edgeOf s)
    (h : acquireLocal beaconEdgeIdx s idx key = some s') : Invariant edgeOf s' := by
  obtain ⟨⟨beacon, reply⟩, hacquire, rfl⟩ := Option.map_eq_some_iff.1 h
  have hstep : CooperationWrapper.step s.beacon (.acquireByCacheServer key beaconEdgeIdx) =
      some (beacon, .acquire reply) := by
    simp [CooperationWrapper.step, hacquire]
  have hbeacon := CooperationWrapper.invariant_step hinv.beacon hstep
  rcases CooperationWrapper.acquireByCacheServer_spec hinv.beacon hacquire with
    ⟨hresult, rfl⟩ | ⟨hresult, hnone, -, hblocked, -⟩ | ⟨hresult, -, -, -, -, hblocked⟩
  · simp only [hresult, reduceCtorEq, if_false]
    exact hinv
  · simp only [hresult, if_true]
    have hgrant := hinv.grant (.localWorker idx) hbeacon hnone hblocked
    refine { hgrant with local_holding := ?_ }
    intro i k hk
    simp only [update_apply] at hk
    split at hk
    · next hi =>
      cases hk
      rw [hi]
      exact update_self _ _ _
    · exact hgrant.local_holding i k hk
  · simp only [hresult, reduceCtorEq, if_false]
    exact hinv.of_beacon hbeacon fun k => by rw [hblocked]

theorem Invariant.releaseLocal (hinv : Invariant edgeOf s)
    (hholds : s.localWorkers idx = some key) (h : releaseLocal beaconEdgeIdx s idx key = some s') :
    Invariant edgeOf s' := by
  obtain ⟨⟨beacon, reply⟩, hrelease, rfl⟩ := Option.map_eq_some_iff.1 h
  obtain ⟨-, -, hblocked, -⟩ := CooperationWrapper.releaseLocalWritelock_spec hinv.beacon hrelease
  have howner := hinv.local_holding idx key hholds
  refine hinv.free (CooperationWrapper.invariant_release hinv.beacon hrelease) hblocked ?_ ?_
    (List.Subset.refl _) hinv.fresh_released
  · intro addr haddr
    rw [howner] at haddr
    cases haddr
  · intro i k hk
    simp only [update_apply] at hk
    split at hk
    · cases hk
    · next hi =>
      refine ⟨hk, ?_⟩
      rintro rfl
      have := hinv.local_holding i k hk
      rw [howner] at this
      cases this
      exact hi rfl

theorem blocked_directory {w w' : CooperationWrapper} (hinv : CooperationWrapper.Invariant w)
    {op : Operation} {reply : CooperationWrapper.Reply} (hop : isDirectoryOperation op = true)
    (h : CooperationWrapper.step w op = some (w', reply)) (k : Key) :
    w'.blocked k = none ↔ w.blocked k = none := by
  cases op with
  | lookupByCacheServer key source draw =>
    obtain ⟨rfl, -⟩ := CooperationWrapper.step_cases h
    rfl
  | lookupByBeaconServer key source addr draw =>
    obtain ⟨r, hlookup, -⟩ := CooperationWrapper.step_cases h
    rcases CooperationWrapper.lookupByBeaconServer_spec hinv hlookup with
      ⟨-, rfl, -⟩ | ⟨l, hl, -, -, -, -, -, hblocked⟩
    · rfl
    · rw [hblocked]
      by_cases hk : k = key
      · subst hk
        simp [hl]
      · rw [update_of_ne hk]
  | updateDirectory key source isAdmit dirinfo =>
    obtain ⟨r, hupdate, -⟩ := CooperationWrapper.step_cases h
    obtain ⟨htracker, -⟩ := CooperationWrapper.updateDirectoryTable_spec hinv hupdate
    rw [CooperationWrapper.blocked, htracker, CooperationWrapper.blocked]
  | acquireByCacheServer key source => cases hop
  | acquireByBeaconServer key source addr => cases hop
  | release key source dirinfo => cases hop

/-! ## Runs -/

/-- A release request that was not processed is of the worker that waits for it and owns the
lock. -/
theorem Invariant.release_owner (hinv : Invariant edgeOf s) (hmem : request ∈ s.requests)
    (hkind : request.kind = .releaseWritelock) (hnew : (request.addr, request.seqnum) ∉ s.released)
    :
    s.workers request.addr = .releasing request.key request.seqnum ∧
      s.owner request.key = some (.worker request.addr) := by
  have hworker := (hinv.release_request request hmem hkind).resolve_left hnew
  exact ⟨hworker, hinv.releasing _ _ _ hworker hnew⟩

/-- One step that meets the condition keeps the invariant. -/
theorem Invariant.next (hinv : Invariant edgeOf s) {action : Action}
    (hmeets : Meets edgeOf s action) (h : next edgeOf beaconEdgeIdx s action = some s') :
    Invariant edgeOf s' := by
  cases action with
  | startAcquire addr key =>
    simp only [WriteLockProtocol.next] at h
    split at h
    · next hworker =>
      cases h
      exact hinv.sendFresh (by simp [hworker]) (by simp)
    · cases h
      exact hinv
  | startRelease addr =>
    simp only [WriteLockProtocol.next] at h
    split at h
    · next key hworker =>
      cases h
      exact hinv.sendFresh (by simp [hworker]) fun _ => hinv.holding addr key hworker
    · cases h
      exact hinv
  | resend addr =>
    simp only [WriteLockProtocol.next] at h
    split at h
    · next key seqnum hworker =>
      cases h
      exact hinv.resend hworker
    · next key seqnum hworker =>
      cases h
      exact hinv.resend hworker
    · cases h
      exact hinv
  | deliverRequest idx =>
    simp only [WriteLockProtocol.next] at h
    split at h
    · next request hget =>
      have hmem : request ∈ s.requests := mem_of_getElem? hget
      have hfew : Invariant edgeOf { s with requests := s.requests.eraseIdx idx } :=
        hinv.of_fewer (eraseIdx_subset) (List.Subset.refl s.responses)
      have hrequest := hmeets request hget
      unfold processRequest at h
      unfold RequestMeets at hrequest
      split at h
      · next hkind =>
        exact hfew.processAcquire (hinv.acquire_request request hmem hkind)
          (hinv.fresh_request request hmem) h
      · next hkind =>
        rw [hkind] at hrequest
        obtain ⟨hworker, howner⟩ := hinv.release_owner hmem hkind hrequest
        exact hfew.processRelease hworker howner h
    · cases h
      exact hinv
  | deliverResponse idx =>
    simp only [WriteLockProtocol.next] at h
    split at h
    · next response hget =>
      cases h
      exact hinv.acceptResponse (mem_of_getElem? hget) eraseIdx_subset
    · cases h
      exact hinv
  | finishBlock addr =>
    simp only [WriteLockProtocol.next] at h
    split at h
    · next key hworker =>
      split at h
      · cases h
        exact hinv.sendFresh (by simp [hworker]) (by simp)
      · cases h
        exact hinv
    · cases h
      exact hinv
  | localAcquire idx key =>
    simp only [WriteLockProtocol.next] at h
    split at h
    · exact hinv.acquireLocal h
    · cases h
      exact hinv
  | localRelease idx =>
    simp only [WriteLockProtocol.next] at h
    split at h
    · next key hholds => exact hinv.releaseLocal hholds h
    · cases h
      exact hinv
  | directory op =>
    simp only [WriteLockProtocol.next] at h
    split at h
    · next hop =>
      obtain ⟨⟨beacon, reply⟩, hstep, rfl⟩ := Option.map_eq_some_iff.1 h
      exact hinv.of_beacon (CooperationWrapper.invariant_step hinv.beacon hstep)
        (blocked_directory hinv.beacon hop hstep)
    · cases h
      exact hinv

/-- No assertion fails in a step that meets the condition. -/
theorem Invariant.next_isSome (hinv : Invariant edgeOf s) (beaconEdgeIdx : Nat) {action : Action}
    (hmeets : Meets edgeOf s action) :
    ∃ s', WriteLockProtocol.next edgeOf beaconEdgeIdx s action = some s' := by
  have hwritten : ∀ key holder, s.owner key = some holder → s.beacon.blocked key ≠ none := by
    intro key holder howner hnone
    rw [(hinv.owner_iff key).2 hnone] at howner
    cases howner
  cases action with
  | startAcquire addr key =>
    simp only [WriteLockProtocol.next]
    split <;> exact ⟨_, rfl⟩
  | startRelease addr =>
    simp only [WriteLockProtocol.next]
    split <;> exact ⟨_, rfl⟩
  | resend addr =>
    simp only [WriteLockProtocol.next]
    split <;> exact ⟨_, rfl⟩
  | deliverRequest idx =>
    simp only [WriteLockProtocol.next]
    split
    · next request hget =>
      have hrequest := hmeets request hget
      unfold RequestMeets at hrequest
      unfold processRequest
      split
      · next hkind =>
        rw [hkind] at hrequest
        obtain ⟨p, hp⟩ := (CooperationWrapper.acquireByBeaconServer_isSome_iff hinv.beacon
          (edgeOf request.addr) request.addr).2 hrequest
        simp [processAcquireWritelockRequest, hp]
      · next hkind =>
        rw [hkind] at hrequest
        obtain ⟨-, howner⟩ :=
          hinv.release_owner (mem_of_getElem? hget) hkind hrequest
        obtain ⟨p, hp⟩ := (CooperationWrapper.release_isSome_iff hinv.beacon
          (edgeOf request.addr) ⟨edgeOf request.addr⟩).2 (hwritten _ _ howner)
        simp [processReleaseWritelockRequest, hp]
    · exact ⟨_, rfl⟩
  | deliverResponse idx =>
    simp only [WriteLockProtocol.next]
    split <;> exact ⟨_, rfl⟩
  | finishBlock addr =>
    simp only [WriteLockProtocol.next]
    split
    · split <;> exact ⟨_, rfl⟩
    · exact ⟨_, rfl⟩
  | localAcquire idx key =>
    simp only [WriteLockProtocol.next]
    split
    · obtain ⟨p, hp⟩ :=
        CooperationWrapper.acquireByCacheServer_isSome hinv.beacon key beaconEdgeIdx
      simp [WriteLockProtocol.acquireLocal, hp]
    · exact ⟨_, rfl⟩
  | localRelease idx =>
    simp only [WriteLockProtocol.next]
    split
    · next key hholds =>
      obtain ⟨p, hp⟩ := (CooperationWrapper.release_isSome_iff hinv.beacon beaconEdgeIdx
        ⟨beaconEdgeIdx⟩).2 (hwritten _ _ (hinv.local_holding idx key hholds))
      simp [WriteLockProtocol.releaseLocal, hp]
    · exact ⟨_, rfl⟩
  | directory op =>
    simp only [WriteLockProtocol.next]
    split
    · next hop =>
      obtain ⟨p, hp⟩ := (CooperationWrapper.step_isSome_iff hinv.beacon op).2 (hmeets hop)
      simp [hp]
    · exact ⟨_, rfl⟩

theorem Invariant.owner_of_holds (hinv : Invariant edgeOf s) {holder : Holder}
    (h : Holds s key holder) : s.owner key = some holder := by
  cases holder with
  | worker addr =>
    rcases h with hhold | ⟨seqnum, hwait, hnew⟩
    · exact hinv.holding addr key hhold
    · exact hinv.releasing addr key seqnum hwait hnew
  | localWorker idx => exact hinv.local_holding idx key h

end Safety

/-- In every run whose steps meet the condition: at most one worker holds the lock of a key, a
delivered release request is of the worker that holds the lock, and no assertion fails. -/
theorem writelock_mutual_exclusion (edgeOf : NetworkAddr → Nat) (beaconEdgeIdx : Nat)
    {tr : List (Action × Unit)} {s : State}
    (h : Runs (step edgeOf beaconEdgeIdx) (Meets edgeOf) initial tr s) :
    (∀ key holder holder', Holds s key holder → Holds s key holder' → holder = holder') ∧
    (∀ idx request, s.requests[idx]? = some request → request.kind = .releaseWritelock →
      Meets edgeOf s (.deliverRequest idx) → Holds s request.key (.worker request.addr)) ∧
    ∀ action, Meets edgeOf s action → step edgeOf beaconEdgeIdx s action ≠ none := by
  have hinv : Invariant edgeOf s := by
    refine h.invariant (invariant_initial edgeOf) ?_
    intro t a t' b ht hmeets hstep
    obtain ⟨t'', hnext, heq⟩ := Option.map_eq_some_iff.1 hstep
    cases heq
    exact ht.next hmeets hnext
  refine ⟨?_, ?_, ?_⟩
  · intro key holder holder' hholds hholds'
    exact Option.some.inj
      ((hinv.owner_of_holds hholds).symm.trans (hinv.owner_of_holds hholds'))
  · intro idx request hget hkind hmeets
    have hrequest := hmeets request hget
    simp only [RequestMeets, hkind] at hrequest
    exact .inr ⟨request.seqnum,
      (hinv.release_owner (List.mem_of_getElem? hget) hkind hrequest).1, hrequest⟩
  · intro action hmeets
    obtain ⟨s', hs'⟩ := hinv.next_isSome beaconEdgeIdx hmeets
    simp [step, hs']

/-- A worker whose address ends in the number of its edge. -/
def workerOfEdge (edge : UInt16) : NetworkAddr := ⟨[], edge⟩

/-- The edge of such a worker. -/
def edgeOfWorker (addr : NetworkAddr) : Nat := addr.port.toNat

/-- An edge caches the key, and the worker of edge `1` acquires its lock. -/
def firstWriter : List Action :=
  [.directory (.updateDirectory ⟨[7]⟩ 9 true ⟨9⟩), .startAcquire (workerOfEdge 1) ⟨[7]⟩,
    .deliverRequest 0, .deliverResponse 0]

/-- It releases the lock with a request that is sent twice, of which one copy is delivered, and the
worker of edge `2` acquires the lock. -/
def secondWriter : List Action :=
  [.startRelease (workerOfEdge 1), .resend (workerOfEdge 1), .deliverRequest 0,
    .deliverResponse 0, .startAcquire (workerOfEdge 2) ⟨[7]⟩, .deliverRequest 0,
    .deliverResponse 0]

/-- The other copy of the release request is delivered, and the worker of edge `3` acquires the
lock. -/
def thirdWriter : List Action :=
  [.deliverRequest 0, .startAcquire (workerOfEdge 3) ⟨[7]⟩, .deliverRequest 0,
    .deliverResponse 0]

theorem writelock_mutual_exclusion_secondWriter :
    ∃ tr s, Runs (step edgeOfWorker 0) (Meets edgeOfWorker) initial tr s ∧
      Holds s ⟨[7]⟩ (.worker (workerOfEdge 2)) ∧
      ∀ holder, Holds s ⟨[7]⟩ holder → holder = .worker (workerOfEdge 2) := by
  have hexec : (exec (step edgeOfWorker 0) (Meets edgeOfWorker) initial
      (firstWriter ++ secondWriter)).any
        (fun s => decide (s.workers (workerOfEdge 2) = .holding ⟨[7]⟩)) = true := by
    decide +kernel
  obtain ⟨tr, s, hrun, -, hs⟩ := exists_runs_of_any hexec
  have hholds : Holds s ⟨[7]⟩ (.worker (workerOfEdge 2)) := .inl (of_decide_eq_true hs)
  refine ⟨tr, s, hrun, hholds, fun holder hholder => ?_⟩
  exact (writelock_mutual_exclusion edgeOfWorker 0 hrun).1 _ _ _ hholder hholds

/-- Without the condition a duplicate release request frees the lock of another worker, and two
workers hold the lock of one key. -/
theorem duplicate_release_breaks_exclusion :
    ¬ ∀ tr s, Runs (step edgeOfWorker 0) anyAction initial tr s →
      ∀ key holder holder', Holds s key holder → Holds s key holder' → holder = holder' := by
  intro h
  have hexec : (exec (step edgeOfWorker 0) anyAction initial
      (firstWriter ++ secondWriter ++ thirdWriter)).any (fun s =>
        decide (s.workers (workerOfEdge 2) = .holding ⟨[7]⟩) &&
          decide (s.workers (workerOfEdge 3) = .holding ⟨[7]⟩)) = true := by
    decide +kernel
  obtain ⟨tr, s, hrun, -, hs⟩ := exists_runs_of_any hexec
  rw [Bool.and_eq_true] at hs
  have heq := h tr s hrun ⟨[7]⟩ (.worker (workerOfEdge 2)) (.worker (workerOfEdge 3))
    (.inl (of_decide_eq_true hs.1)) (.inl (of_decide_eq_true hs.2))
  exact absurd heq (by decide)

end Covered.Cooperation.WriteLockProtocol
