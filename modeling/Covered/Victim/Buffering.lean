import Covered.Victim.Synchronization

/-!
# Buffering of syncsets at a receiver

A receiver buffers compressed syncsets that arrive ahead of the one it tracks. When the missing one
arrives, the buffered syncsets that continue it are applied one after the other, and an assertion
says that all remaining ones are ahead of the tracked one. The receiver does not look for the
sequence number of an arriving syncset in the buffer, so a syncset that is delivered twice while it
is ahead is buffered twice, and the second copy then fails the assertion.

`buffering_total` says that this is the only way to abort: as long as no syncset is buffered twice,
every delivery succeeds, the buffered sequence numbers are ahead of the tracked one and distinct,
and the tracked one never decreases.
-/

set_option autoImplicit false

namespace Covered.Victim.Network

open Common Lib Lib.Execution

/-- No property of the victims is needed. -/
def anyVictim : VictimCacheinfo → Prop := fun _ => True

instance : DecidablePred anyVictim := fun _ => inferInstanceAs (Decidable True)

/-- No relation between an issued syncset and its reconstruction is needed. -/
def anyReconstruction : List VictimSyncset → VictimSyncset → Nat → List VictimCacheinfo → Prop :=
  fun _ _ _ _ => True

theorem tracked_anyReconstruction : Tracked anyVictim anyReconstruction where
  fresh := fun _ _ => trivial
  extend := fun _ _ => trivial
  roundTrip := fun _ _ _ _ _ _ => trivial

/-- A syncset that is delivered is not buffered when one with its sequence number is. -/
def NeverTwice (cfg : SyncConfig) (n : Network) : SyncAction → Prop
  | .deliver index _ | .deliverCopy index _ =>
      ∀ msg ∈ n.inFlight[index]?, ¬ VictimsyncMonitor.BuffersTwice
        cfg.peredgeMonitoredVictimsetcnt (n.monitor msg.dst msg.src) msg.syncset
  | _ => True

/-- The buffered sequence numbers of every receiver are distinct. -/
def DistinctBuffers (n : Network) : Prop :=
  ∀ src dst, src ≠ dst →
    KeyedList.NodupKeys VictimSyncset.seqnum (n.monitor dst src).cachedVictimSyncsets

section Steps

variable {V : VictimCacheinfo → Prop}
  {Q : List VictimSyncset → VictimSyncset → Nat → List VictimCacheinfo → Prop}
  {cfg : SyncConfig} {n n' : Network} {a : SyncAction} {out : Unit}

theorem not_buffersTwice {index : Nat} {view : CooperationView} {msg : SyncMessage}
    (ha : a = .deliver index view ∨ a = .deliverCopy index view) (h : NeverTwice cfg n a)
    (hmsg : n.inFlight[index]? = some msg) :
    ¬ VictimsyncMonitor.BuffersTwice cfg.peredgeMonitoredVictimsetcnt
      (n.monitor msg.dst msg.src) msg.syncset := by
  rcases ha with rfl | rfl
  all_goals exact h msg hmsg

/-- The flag of a syncset has no effect on whether it would be buffered twice. -/
theorem buffersTwice_obeyEnforcement {cnt : Nat} (t : VictimTracker) (src : Nat)
    (s : VictimSyncset) :
    VictimsyncMonitor.BuffersTwice cnt (t.obeyEnforcement src s) s ↔
      VictimsyncMonitor.BuffersTwice cnt (t.peredgeVictimsyncMonitor src) s := by
  obtain ⟨htracked, hfirst, hcached, -⟩ := obeyEnforcement_eq t src s
  rw [VictimsyncMonitor.BuffersTwice, VictimsyncMonitor.BuffersTwice, htracked, hfirst, hcached]

section Steps

variable (hQ : Tracked V Q) (hconsistent : Consistent V Q cfg n)
include hQ hconsistent

/-- A step that buffers nothing twice keeps the buffered sequence numbers distinct. -/
theorem DistinctBuffers.step (h : DistinctBuffers n) (ha : Admissible V cfg n a)
    (htwice : NeverTwice cfg n a) (hstep : n.step a = some (n', out)) : DistinctBuffers n' := by
  intro src dst hne
  rcases step_cases hstep with ⟨hsame, -⟩ | ⟨s, d, bytes, rfl, hsend⟩ |
    ⟨index, view, msg, n₁, hact, hmsg, hreceive, hsame, -⟩
  · rw [hsame]
    exact h src dst hne
  · -- a send changes the sender part of one monitor
    rw [(monitor_send hconsistent ha.1 ha.2 hsend dst src).1.2.1]
    exact h src dst hne
  · rw [hsame]
    obtain ⟨m', result, hreceipt, hmonitor, -⟩ :=
      receive_cases hQ hconsistent (List.mem_of_getElem? hmsg) hreceive
    rw [hmonitor]
    split
    · next hpair =>
      obtain ⟨rfl, rfl⟩ := hpair
      have hnot := not_buffersTwice hact htwice hmsg
      apply hreceipt.distinct
      · rw [(obeyEnforcement_eq _ _ _).2.2.1]
        exact h msg.src msg.dst hne
      · rw [buffersTwice_obeyEnforcement]
        exact hnot
    · exact h src dst hne

/-- A receipt does not abort if the buffered sequence numbers are distinct. -/
theorem receive_isSome (h : DistinctBuffers n) {msg : SyncMessage} (hmsg : msg ∈ n.inFlight)
    (view : CooperationView) : ∃ n', n.receive msg view = some n' := by
  obtain ⟨hne, hgenuine⟩ := hconsistent.inFlight msg hmsg
  have hissued := hconsistent.issuedWell msg.src msg.dst
  have hlimit := (hconsistent.sender msg.src msg.dst hne).limit
  have hcomplete := hconsistent.complete msg.dst
  have hreceiver := hconsistent.receiver msg.src msg.dst hne
  obtain ⟨m', result, hreceive⟩ := receive_total hQ hissued hlimit hcomplete hreceiver hgenuine
    (h msg.src msg.dst hne)
  have hreceipt := receipt_of_receive hQ hissued hlimit hcomplete hreceiver hgenuine hreceive
  have hcfg := hconsistent.config msg.dst
  rw [← hcfg.2.2] at hreceive
  -- what is applied is a reconstruction, so it is complete and not larger than what was issued
  have happly : ∀ final, result = some final → final.AllComplete ∧
      msg.syncset.seqnum ≤ final.seqnum ∧
      final.localSyncedVictims.length ≤ (n.trackers msg.dst).peredgeSyncedVictimcnt := by
    rintro final rfl
    cases hreceipt with
    | applied cached final hnew hkind hR hle hsub hahead =>
      obtain ⟨hwf, current, hcurrent, hknown⟩ := hR
      refine ⟨hwf.toAllComplete, hle, ?_⟩
      rw [hcfg.2.1]
      calc final.localSyncedVictims.length
          ≤ current.localSyncedVictims.length := length_le_of_partOf hwf.distinct hknown.partOf
        _ ≤ cfg.peredgeSyncedVictimcnt := (hissued _ _ hcurrent).length_le
  obtain ⟨t', ht'⟩ : ∃ t', (n.trackers msg.dst).updateForNeighborVictimSyncset msg.src msg.syncset
      view = some t' :=
    VictimTracker.updateForNeighborVictimSyncset_isSome hcomplete hreceive happly
  simp only [Network.receive, Option.bind_eq_bind, ht', Option.bind_some]
  exact ⟨_, rfl⟩

/-- A delivery does not abort if the buffered sequence numbers are distinct. -/
theorem deliver_isSome (h : DistinctBuffers n) (index : Nat) (view : CooperationView)
    (ha : a = .deliver index view ∨ a = .deliverCopy index view) :
    ∃ n', n.step a = some (n', ()) := by
  cases hmsg : n.inFlight[index]? with
  | none =>
    rcases ha with rfl | rfl
    all_goals exact ⟨n, by simp only [Network.step, hmsg]⟩
  | some msg =>
    obtain ⟨n₁, hreceive⟩ :=
      receive_isSome hQ hconsistent h (List.mem_of_getElem? hmsg) view
    rcases ha with rfl | rfl
    all_goals
      simp only [Network.step, hmsg, hreceive, Option.bind_eq_bind, Option.bind_some]
      exact ⟨_, rfl⟩

/-- No step decreases a tracked sequence number. -/
theorem tracked_le_step (ha : Admissible V cfg n a) (hstep : n.step a = some (n', out))
    {src dst : Nat}
    (hne : src ≠ dst) : (n.monitor dst src).trackedSeqnum ≤ (n'.monitor dst src).trackedSeqnum := by
  rcases step_cases hstep with ⟨hsame, -⟩ | ⟨s, d, bytes, rfl, hsend⟩ |
    ⟨index, view, msg, n₁, -, hmsg, hreceive, hsame, -⟩
  · rw [hsame]
  · rw [(monitor_send hconsistent ha.1 ha.2 hsend dst src).1.1]
  · rw [hsame]
    obtain ⟨m', result, hreceipt, hmonitor, -⟩ :=
      receive_cases hQ hconsistent (List.mem_of_getElem? hmsg) hreceive
    rw [hmonitor]
    split
    · next hpair =>
      obtain ⟨rfl, rfl⟩ := hpair
      have hle := hreceipt.tracked_le
        (receiverOk_obeyEnforcement (hconsistent.receiver msg.src msg.dst hne)).receptive
      rwa [(obeyEnforcement_eq _ _ _).1] at hle
    · exact le_refl _

end Steps

end Steps

/-- The steps of a run in which no receiver buffers a syncset twice. -/
def BufferedOnce (cfg : SyncConfig) (n : Network) (a : SyncAction) : Prop :=
  Admissible anyVictim cfg n a ∧ NeverTwice cfg n a

theorem consistent_distinctBuffers {cfg : SyncConfig} {tr : List (SyncAction × Unit)}
    {n : Network} (hrun : Runs step (BufferedOnce cfg) (init cfg) tr n) :
    Consistent anyVictim anyReconstruction cfg n ∧ DistinctBuffers n := by
  apply hrun.invariant (P := fun n => Consistent anyVictim anyReconstruction cfg n ∧
    DistinctBuffers n)
  · refine ⟨consistent_init _ _ cfg, ?_⟩
    intro src dst _
    exact List.nodup_nil
  · rintro n a n' out ⟨hconsistent, hdistinct⟩ ha hstep
    constructor
    · exact hconsistent.step tracked_anyReconstruction ha.1 hstep
    · exact hdistinct.step tracked_anyReconstruction hconsistent ha.1 ha.2 hstep

/-- In every run in which no receiver buffers a syncset twice: buffered sequence numbers are ahead
of the tracked one and distinct, no delivery aborts, and tracked sequence numbers never decrease. -/
theorem buffering_total {cfg : SyncConfig} {tr : List (SyncAction × Unit)} {n : Network}
    (hrun : Runs step (BufferedOnce cfg) (init cfg) tr n) :
    (∀ src dst, src ≠ dst →
      (∀ s ∈ (n.monitor dst src).cachedVictimSyncsets,
        (n.monitor dst src).trackedSeqnum < s.seqnum) ∧
      ((n.monitor dst src).cachedVictimSyncsets.map VictimSyncset.seqnum).Nodup) ∧
    (∀ index view, (∃ n', n.step (.deliver index view) = some (n', ())) ∧
      ∃ n', n.step (.deliverCopy index view) = some (n', ())) ∧
    (∀ a n', Admissible anyVictim cfg n a → n.step a = some (n', ()) → ∀ src dst, src ≠ dst →
      (n.monitor dst src).trackedSeqnum ≤ (n'.monitor dst src).trackedSeqnum) := by
  obtain ⟨hconsistent, hdistinct⟩ := consistent_distinctBuffers hrun
  refine ⟨?_, ?_, ?_⟩
  · intro src dst hne
    exact ⟨(hconsistent.receiver src dst hne).receptive.ahead, hdistinct src dst hne⟩
  · intro index view
    constructor
    · exact deliver_isSome tracked_anyReconstruction hconsistent hdistinct index view (.inl rfl)
    · exact deliver_isSome tracked_anyReconstruction hconsistent hdistinct index view (.inr rfl)
  · intro a n' ha hstep src dst hne
    exact tracked_le_step tracked_anyReconstruction hconsistent ha hstep hne

/-! ## Concrete runs -/

instance (cfg : SyncConfig) (n : Network) (a : SyncAction) : Decidable (NeverTwice cfg n a) :=
  match a with
  | .deliver index _ => inferInstanceAs (Decidable (∀ msg ∈ n.inFlight[index]?, ¬ _))
  | .deliverCopy index _ => inferInstanceAs (Decidable (∀ msg ∈ n.inFlight[index]?, ¬ _))
  | .updateCacheMargin _ _ => .isTrue trivial
  | .updateSyncedVictims _ _ _ _ => .isTrue trivial
  | .updateBeaconedDirinfo _ _ _ _ => .isTrue trivial
  | .removeVictims _ _ _ => .isTrue trivial
  | .send _ _ _ => .isTrue trivial
  | .lose _ => .isTrue trivial

instance (cfg : SyncConfig) (n : Network) (a : SyncAction) : Decidable (BufferedOnce cfg n a) :=
  inferInstanceAs (Decidable (_ ∧ _))

/-- One victim for each edge, and a buffer for two syncsets. -/
def twoBuffered : SyncConfig := ⟨2, 1, 2⟩

/-- Every key has its beacon at the second edge, which has no directory info. -/
def secondEdgeView : CooperationView := ⟨fun _ => 1, fun _ => []⟩

/-- Two syncsets are on their way; the compressed one overtakes the complete one. -/
def overtaken : List SyncAction := [.send 0 1 100, .send 0 1 101, .deliverCopy 1 secondEdgeView]

/-- A second copy of a syncset that is ahead is buffered too. The next delivery of the complete
syncset before it fails an assertion. -/
theorem redelivery_breaks_buffering :
    ∃ tr n, Runs step (Admissible anyVictim twoBuffered) (init twoBuffered) tr n ∧
      ¬ ((n.monitor 1 0).cachedVictimSyncsets.map VictimSyncset.seqnum).Nodup ∧
      n.step (.deliver 0 secondEdgeView) = none := by
  have hexec : (exec step (Admissible anyVictim twoBuffered) (init twoBuffered)
      (overtaken ++ [.deliverCopy 1 secondEdgeView])).any (fun n =>
        decide (¬ ((n.monitor 1 0).cachedVictimSyncsets.map VictimSyncset.seqnum).Nodup) &&
          (n.step (.deliver 0 secondEdgeView)).isNone) = true := by
    decide +kernel
  obtain ⟨tr, n, hrun, -, hlast⟩ := exists_runs_of_any hexec
  rw [Bool.and_eq_true, decide_eq_true_eq, Option.isNone_iff_eq_none] at hlast
  exact ⟨tr, n, hrun, hlast⟩

/-- A compressed syncset that overtakes the complete one before it is applied when that arrives. -/
theorem buffering_total_overtaken :
    ∃ tr n, Runs step (BufferedOnce twoBuffered) (init twoBuffered) tr n ∧
      (n.monitor 1 0).cachedVictimSyncsets.map VictimSyncset.seqnum = [1] ∧
      ∃ n', n.step (.deliver 0 secondEdgeView) = some (n', ()) := by
  have hexec : (exec step (BufferedOnce twoBuffered) (init twoBuffered) overtaken).any (fun n =>
      decide ((n.monitor 1 0).cachedVictimSyncsets.map VictimSyncset.seqnum = [1])) = true := by
    decide +kernel
  obtain ⟨tr, n, hrun, -, hlast⟩ := exists_runs_of_any hexec
  obtain ⟨-, htotal, -⟩ := buffering_total hrun
  exact ⟨tr, n, hrun, of_decide_eq_true hlast, (htotal 0 secondEdgeView).1⟩

end Covered.Victim.Network
