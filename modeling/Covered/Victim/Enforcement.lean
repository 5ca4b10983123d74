import Covered.Victim.Buffering

/-!
# Recovery from lost syncsets

A receiver with a full buffer waits for a complete syncset. It asks the sender for one by a flag
that its own next syncset to the sender carries; the sender then forgets the previous syncset, so
that its next one is complete and has a larger sequence number than all it has sent.

The receiver clears its flag when it sends it, and it does not set it again while it waits. So the
request is lost with the message that carries it, and the answer is lost with the complete syncset:
after such a loss the receiver waits for a syncset that nobody is going to send
(`lost_request_never_recovers`). `never_stuck` says that every other loss is harmless.
-/

set_option autoImplicit false

namespace Covered.Victim.Network

open Common Lib Lib.Execution

/-- A complete syncset of the sender is still to come: the receiver has the request to send, the
request is in flight, the sender has obeyed it, or the complete syncset is in flight. -/
def Recoverable (n : Network) (sender receiver : Nat) : Prop :=
  (n.monitor receiver sender).needEnforcement = true ∨
  (∃ msg ∈ n.inFlight, msg.src = receiver ∧ msg.dst = sender ∧
    msg.syncset.isEnforceComplete = true) ∨
  (n.monitor sender receiver).prevVictimSyncset = none ∨
  ∃ msg ∈ n.inFlight, msg.src = sender ∧ msg.dst = receiver ∧ msg.syncset.isComplete = true ∧
    (n.monitor receiver sender).enforcementSeqnum < msg.syncset.seqnum

/-- A message that is lost carries no request of an edge that waits, and is not the complete
syncset that its destination waits for. -/
def HarmlessLoss (n : Network) : SyncAction → Prop
  | .lose index => ∀ msg ∈ n.inFlight[index]?,
      ¬ ((n.monitor msg.src msg.dst).waitForCompleteVictimSyncset = true ∧
        msg.syncset.isEnforceComplete = true) ∧
      ¬ ((n.monitor msg.dst msg.src).waitForCompleteVictimSyncset = true ∧
        msg.syncset.isComplete = true ∧
        (n.monitor msg.dst msg.src).enforcementSeqnum < msg.syncset.seqnum)
  | _ => True

/-- No receiver waits for a syncset that nobody is going to send. -/
def NeverStuck (n : Network) : Prop :=
  ∀ sender receiver, sender ≠ receiver →
    (n.monitor receiver sender).waitForCompleteVictimSyncset = true →
    Recoverable n sender receiver

section Steps

variable {V : VictimCacheinfo → Prop}
  {Q : List VictimSyncset → VictimSyncset → Nat → List VictimCacheinfo → Prop}
  {cfg : SyncConfig} {n n' : Network} {a : SyncAction} {out : Unit}

theorem NeverStuck.lose (h : NeverStuck n) (hmonitor : ∀ x y, n'.monitor x y = n.monitor x y)
    {index : Nat} (hlost : HarmlessLoss n (.lose index))
    (hinFlight : n'.inFlight = n.inFlight.eraseIdx index) : NeverStuck n' := by
  intro sender receiver hne hwait
  rw [hmonitor] at hwait
  rw [Recoverable, hmonitor, hmonitor, hinFlight]
  rcases h sender receiver hne hwait with hneed | ⟨msg, hmsg, rfl, rfl, hflag⟩ | hprev |
    ⟨msg, hmsg, rfl, rfl, hcomplete, hlt⟩
  · exact .inl hneed
  · rcases KeyedList.mem_eraseIdx_or index hmsg with hat | hmem
    · exact absurd ⟨hwait, hflag⟩ (hlost msg hat).1
    · exact .inr (.inl ⟨msg, hmem, rfl, rfl, hflag⟩)
  · exact .inr (.inr (.inl hprev))
  · rcases KeyedList.mem_eraseIdx_or index hmsg with hat | hmem
    · exact absurd ⟨hwait, hcomplete, hlt⟩ (hlost msg hat).2
    · exact .inr (.inr (.inr ⟨msg, hmem, rfl, rfl, hcomplete, hlt⟩))

/-- A send passes the request on, and the first send after it answers the request. -/
theorem NeverStuck.send (hconsistent : Consistent V Q cfg n) (h : NeverStuck n) {src dst : Nat}
    (hne : src ≠ dst) {bytes : Nat} (hbytes : bytes < uint64Limit)
    (hsend : n.send src dst bytes = some n') : NeverStuck n' := by
  obtain ⟨numbered, final, -, hflag, hseqnum, -, hcomplete, -, hn'⟩ :=
    send_cases hconsistent hne hbytes hsend
  have hinFlight : n'.inFlight = n.inFlight ++ [⟨src, dst, final⟩] := by rw [hn']
  have hold : ∀ msg ∈ n.inFlight, msg ∈ n'.inFlight := by
    intro msg hmsg
    rw [hinFlight]
    exact List.mem_append_left _ hmsg
  have hnew : ⟨src, dst, final⟩ ∈ n'.inFlight := by
    rw [hinFlight]
    exact List.mem_append_right _ (List.mem_singleton.2 rfl)
  intro sender receiver hpair hwait
  obtain ⟨⟨-, -, henforcement, hwaiting⟩, hsame⟩ :=
    monitor_send hconsistent hne hbytes hsend receiver sender
  obtain ⟨-, hsameBack⟩ := monitor_send hconsistent hne hbytes hsend sender receiver
  rw [hwaiting] at hwait
  rcases h sender receiver hpair hwait with hneed | ⟨msg, hmsg, hsrc, hdst, hmsgFlag⟩ | hprev |
    ⟨msg, hmsg, hsrc, hdst, hmsgComplete, hlt⟩
  · by_cases heq : receiver = src ∧ sender = dst
    · -- the syncset carries the request
      obtain ⟨rfl, rfl⟩ := heq
      exact .inr (.inl ⟨_, hnew, rfl, rfl, hflag.trans hneed⟩)
    · exact .inl (by rw [hsame heq]; exact hneed)
  · exact .inr (.inl ⟨msg, hold msg hmsg, hsrc, hdst, hmsgFlag⟩)
  · by_cases heq : sender = src ∧ receiver = dst
    · -- the syncset is complete, and its sequence number is larger than all seen
      obtain ⟨rfl, rfl⟩ := heq
      refine .inr (.inr (.inr ⟨_, hnew, rfl, rfl, hcomplete hprev, ?_⟩))
      rw [henforcement, hseqnum]
      exact (hconsistent.receiver sender receiver hne).waiting hwait
    · exact .inr (.inr (.inl (by rw [hsameBack heq]; exact hprev)))
  · rw [← henforcement] at hlt
    exact .inr (.inr (.inr ⟨msg, hold msg hmsg, hsrc, hdst, hmsgComplete, hlt⟩))

theorem prev_none_obeyEnforcement (t : VictimTracker) (src : Nat) (s : VictimSyncset)
    (h : s.isEnforceComplete = true ∨ (t.peredgeVictimsyncMonitor src).prevVictimSyncset = none) :
    (t.obeyEnforcement src s).prevVictimSyncset = none := by
  unfold VictimTracker.obeyEnforcement
  split
  · rfl
  · next hflag => exact h.resolve_left hflag

/-- A receipt of the request makes the sender forget the previous syncset, and a receipt of the
complete syncset ends the waiting. -/
theorem NeverStuck.receive (hQ : Tracked V Q) (hconsistent : Consistent V Q cfg n)
    (h : NeverStuck n) {index : Nat} {msg : SyncMessage} (hmsg : n.inFlight[index]? = some msg)
    {view : CooperationView} {n₁ : Network} (hreceive : n.receive msg view = some n₁)
    (hmonitor : ∀ x y, n'.monitor x y = n₁.monitor x y)
    (hinFlight : n'.inFlight = n₁.inFlight ∨ n'.inFlight = n.inFlight.eraseIdx index) :
    NeverStuck n' := by
  have hmem := List.mem_of_getElem? hmsg
  obtain ⟨m', result, hreceipt, hchanged, -, -, hkept, -, -⟩ :=
    receive_cases hQ hconsistent hmem hreceive
  -- every other message is still in flight
  have hother : ∀ x ∈ n.inFlight, x = msg ∨ x ∈ n'.inFlight := by
    intro x hx
    rcases hinFlight with heq | heq
    · rw [heq, hkept]
      exact .inr hx
    · rw [heq]
      rcases KeyedList.mem_eraseIdx_or index hx with hat | hmem
      · rw [hmsg, Option.some.injEq] at hat
        exact .inl hat.symm
      · exact .inr hmem
  obtain ⟨-, -, -, hneedEq, henforcementEq, hwaitEq⟩ :=
    obeyEnforcement_eq (n.trackers msg.dst) msg.src msg.syncset
  intro sender receiver hne hwait
  rw [hmonitor, hchanged] at hwait
  rw [Recoverable, hmonitor, hmonitor, hchanged, hchanged]
  by_cases hdirection : receiver = msg.dst ∧ sender = msg.src
  · -- the receiver gets a syncset of the sender
    obtain ⟨rfl, rfl⟩ := hdirection
    have hback : ¬ (msg.src = msg.dst ∧ msg.dst = msg.src) := fun hc => hne hc.1
    rw [if_pos ⟨rfl, rfl⟩] at hwait ⊢
    rw [if_neg hback]
    have hstill := hreceipt.still_waiting
      (receiverOk_obeyEnforcement (hconsistent.receiver msg.src msg.dst hne)).receptive hwait
    rcases hstill with hneed | ⟨hwaited, hneed', henforcement', hnot⟩
    · exact .inl hneed
    · rw [hwaitEq] at hwaited
      rw [hneed', henforcement', hneedEq, henforcementEq]
      rw [henforcementEq] at hnot
      rcases h msg.src msg.dst hne hwaited with hneed | ⟨x, hx, hsrc, hdst, hflag⟩ | hprev |
        ⟨x, hx, hsrc, hdst, hcomplete, hlt⟩
      · exact .inl hneed
      · rcases hother x hx with rfl | hx
        · exact absurd hsrc hne
        · exact .inr (.inl ⟨x, hx, hsrc, hdst, hflag⟩)
      · exact .inr (.inr (.inl hprev))
      · rcases hother x hx with rfl | hx
        · exact absurd ⟨hcomplete, hlt⟩ hnot
        · exact .inr (.inr (.inr ⟨x, hx, hsrc, hdst, hcomplete, hlt⟩))
  · rw [if_neg hdirection] at hwait ⊢
    rcases h sender receiver hne hwait with hneed | ⟨x, hx, hsrc, hdst, hflag⟩ | hprev |
      ⟨x, hx, hsrc, hdst, hcomplete, hlt⟩
    · exact .inl hneed
    · rcases hother x hx with rfl | hx
      · -- the request arrives at the sender
        refine .inr (.inr (.inl ?_))
        rw [if_pos ⟨hdst.symm, hsrc.symm⟩, hreceipt.sender_eq.2]
        exact prev_none_obeyEnforcement _ _ _ (.inl hflag)
      · exact .inr (.inl ⟨x, hx, hsrc, hdst, hflag⟩)
    · refine .inr (.inr (.inl ?_))
      split
      · next heq =>
        rw [hreceipt.sender_eq.2]
        rw [heq.1, heq.2] at hprev
        exact prev_none_obeyEnforcement _ _ _ (.inr hprev)
      · exact hprev
    · rcases hother x hx with rfl | hx
      · exact absurd ⟨hdst.symm, hsrc.symm⟩ hdirection
      · exact .inr (.inr (.inr ⟨x, hx, hsrc, hdst, hcomplete, hlt⟩))

theorem NeverStuck.step (hQ : Tracked V Q) (hconsistent : Consistent V Q cfg n)
    (h : NeverStuck n) (ha : Admissible V cfg n a) (hlost : HarmlessLoss n a)
    (hstep : n.step a = some (n', out)) : NeverStuck n' := by
  rcases step_cases hstep with ⟨hsame, hinFlight⟩ | ⟨src, dst, bytes, rfl, hsend⟩ |
    ⟨index, view, msg, n₁, -, hmsg, hreceive, hsame, hinFlight⟩
  · rcases hinFlight with hinFlight | ⟨index, rfl, hinFlight⟩
    · intro sender receiver hne hwait
      rw [hsame] at hwait
      rw [Recoverable, hsame, hsame, hinFlight]
      exact h sender receiver hne hwait
    · exact h.lose hsame hlost hinFlight
  · exact h.send hconsistent ha.1 ha.2 hsend
  · exact h.receive hQ hconsistent hmsg hreceive hsame hinFlight

end Steps

/-- The steps of a run in which every loss is harmless. -/
def LosesHarmlessly (cfg : SyncConfig) (n : Network) (a : SyncAction) : Prop :=
  Admissible anyVictim cfg n a ∧ HarmlessLoss n a

/-- In every run in which every loss is harmless, a receiver that waits for a complete syncset still
has the request to send, or the request is in flight, or the sender has forgotten the previous
syncset, or a complete syncset with a large enough sequence number is in flight. -/
theorem never_stuck {cfg : SyncConfig} {tr : List (SyncAction × Unit)} {n : Network}
    (hrun : Runs step (LosesHarmlessly cfg) (init cfg) tr n) {sender receiver : Nat}
    (hne : sender ≠ receiver)
    (hwait : (n.monitor receiver sender).waitForCompleteVictimSyncset = true) :
    Recoverable n sender receiver := by
  have hinv : Consistent anyVictim anyReconstruction cfg n ∧ NeverStuck n := by
    apply hrun.invariant (P := fun n => Consistent anyVictim anyReconstruction cfg n ∧
      NeverStuck n)
    · refine ⟨consistent_init _ _ cfg, ?_⟩
      intro sender receiver _ hwait
      cases hwait
    · rintro n a n' out ⟨hconsistent, hstuck⟩ ha hstep
      constructor
      · exact hconsistent.step tracked_anyReconstruction ha.1 hstep
      · exact hstuck.step tracked_anyReconstruction hconsistent ha.1 ha.2 hstep
  exact hinv.2 sender receiver hne hwait

/-! ## Concrete runs -/

instance (n : Network) (a : SyncAction) : Decidable (HarmlessLoss n a) :=
  match a with
  | .lose index => inferInstanceAs (Decidable (∀ msg ∈ n.inFlight[index]?, ¬ _ ∧ ¬ _))
  | .updateCacheMargin _ _ => .isTrue trivial
  | .updateSyncedVictims _ _ _ _ => .isTrue trivial
  | .updateBeaconedDirinfo _ _ _ _ => .isTrue trivial
  | .removeVictims _ _ _ => .isTrue trivial
  | .send _ _ _ => .isTrue trivial
  | .deliver _ _ => .isTrue trivial
  | .deliverCopy _ _ => .isTrue trivial

instance (cfg : SyncConfig) (n : Network) (a : SyncAction) :
    Decidable (LosesHarmlessly cfg n a) :=
  inferInstanceAs (Decidable (_ ∧ _))

instance (n : Network) (sender receiver : Nat) : Decidable (Recoverable n sender receiver) :=
  inferInstanceAs (Decidable (_ ∨ (∃ msg ∈ n.inFlight, _) ∨ _ ∨ ∃ msg ∈ n.inFlight, _))

/-- One victim for each edge, and a buffer for one syncset. -/
def oneBuffered : SyncConfig := ⟨2, 1, 1⟩

/-- The complete syncset is late, a compressed one is buffered and the next one finds the buffer
full. The request for a complete syncset is sent back. -/
def requested : List SyncAction :=
  [.send 0 1 100, .send 0 1 101, .send 0 1 102, .deliver 1 secondEdgeView,
    .deliver 1 secondEdgeView, .send 1 0 50]

/-- If the request is lost, the receiver waits, and nothing is left that makes the sender send a
complete syncset. The late one is too old. -/
theorem lost_request_never_recovers :
    ∃ tr n, Runs step (Admissible anyVictim oneBuffered) (init oneBuffered) tr n ∧
      (n.monitor 1 0).waitForCompleteVictimSyncset = true ∧ ¬ Recoverable n 0 1 := by
  have hexec : (exec step (Admissible anyVictim oneBuffered) (init oneBuffered)
      (requested ++ [.lose 1])).any (fun n =>
        decide ((n.monitor 1 0).waitForCompleteVictimSyncset = true ∧ ¬ Recoverable n 0 1)) =
      true := by
    decide +kernel
  obtain ⟨tr, n, hrun, -, hlast⟩ := exists_runs_of_any hexec
  exact ⟨tr, n, hrun, of_decide_eq_true hlast⟩

/-- The late complete syncset is lost, the request arrives and the sender answers it. -/
theorem never_stuck_answered :
    ∃ tr n, Runs step (LosesHarmlessly oneBuffered) (init oneBuffered) tr n ∧
      (n.monitor 1 0).waitForCompleteVictimSyncset = true ∧ Recoverable n 0 1 := by
  have hexec : (exec step (LosesHarmlessly oneBuffered) (init oneBuffered)
      (requested ++ [.lose 0, .deliver 0 secondEdgeView, .send 0 1 103])).any (fun n =>
        decide ((n.monitor 1 0).waitForCompleteVictimSyncset = true)) = true := by
    decide +kernel
  obtain ⟨tr, n, hrun, -, hlast⟩ := exists_runs_of_any hexec
  have hwait := of_decide_eq_true hlast
  exact ⟨tr, n, hrun, hwait, never_stuck hrun (by decide) hwait⟩

end Covered.Victim.Network
