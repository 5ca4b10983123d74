import Covered.Victim.Synchronization

/-!
# Agreement of synchronized victims

When a receiver tracks a sequence number of a sender, what it knows about the sender agrees with
the complete syncset that the sender computed for this number: the free bytes, and the victims with
their sizes and popularities. The base is the last complete syncset that the receiver applied; a
victim that the receiver removes after it is not sent again before it changes.

`agreement` is the theorem. The victims are equal as lists if the rewards of the sender are strictly
ascending and the approximate comparison is exact for rewards too; else up to their order, because
the receiver sorts by the rewards it knows. `agreement_not_exact` has runs for the exceptions.
-/

set_option autoImplicit false

namespace Covered.Victim.Network

open Common Lib Lib.Execution Lib.SortBy
open VictimSyncset (PartOf Covers)

/-- No two different values of the set pass for equal. -/
def Separated (values : Set ℚ) : Prop :=
  ∀ x ∈ values, ∀ y ∈ values, VictimCacheinfo.Exact x y

/-- The popularities and the reward of a victim are in the given sets. -/
def Within (popularities rewards : Set ℚ) (v : VictimCacheinfo) : Prop :=
  v.localCachedPopularity ∈ popularities ∧ v.redirectedCachedPopularity ∈ popularities ∧
    v.localReward ∈ rewards

/-- The free bytes never drop by exactly `2 ^ 31` between consecutive syncsets. -/
def NoMinimalDelta (issued : List VictimSyncset) : Prop :=
  ∀ k prev current, issued[k]? = some prev → issued[k + 1]? = some current →
    prev.cacheMarginBytes ≠ current.cacheMarginBytes + 2 ^ 31

/-- What a receiver that removed nothing knows about an issued syncset. -/
structure Agrees (rewards : Set ℚ) (issued : List VictimSyncset) (current : VictimSyncset)
    (bytes : Nat) (victims : List VictimCacheinfo) : Prop where
  margin : NoMinimalDelta issued → bytes = current.cacheMarginBytes
  contents : PartOf VictimCacheinfo.contents victims current.localSyncedVictims
  covers : Covers victims current.localSyncedVictims
  reports : Separated rewards → PartOf VictimCacheinfo.report victims current.localSyncedVictims
  order : victims = current.localSyncedVictims ∨ Ascending VictimCacheinfo.localReward victims

/-- Round trips keep the agreement. -/
theorem tracked_agrees {popularities : Set ℚ} (hseparated : Separated popularities)
    (rewards : Set ℚ) : Tracked (Within popularities rewards) (Agrees rewards) where
  fresh := by
    intro issued s
    constructor
    · exact fun _ => rfl
    · exact VictimSyncset.partOf_refl _ _
    · exact VictimSyncset.covers_refl _
    · exact fun _ => VictimSyncset.partOf_refl _ _
    · exact .inl rfl
  extend := by
    intro issued s bytes victims later h
    refine ⟨fun hdelta => h.margin ?_, h.contents, h.covers, h.reports, h.order⟩
    intro k prev current hprev hcurrent
    exact hdelta k prev current (getElem?_append_of_some hprev) (getElem?_append_of_some hcurrent)
  roundTrip := by
    intro issued k current prev existing r hprev hcurrent hprevIn hcurrentIn hr h
    have hlocal : ∀ v ∈ current.localSyncedVictims, ∀ p ∈ prev.localSyncedVictims,
        VictimCacheinfo.Exact v.localCachedPopularity p.localCachedPopularity :=
      fun v hv p hp => hseparated _ (hcurrentIn v hv).1 _ (hprevIn p hp).1
    have hredirected : ∀ v ∈ current.localSyncedVictims, ∀ p ∈ prev.localSyncedVictims,
        VictimCacheinfo.Exact v.redirectedCachedPopularity p.redirectedCachedPopularity :=
      fun v hv p hp => hseparated _ (hcurrentIn v hv).2.1 _ (hprevIn p hp).2.1
    constructor
    · intro hdelta
      exact hr.margin_eq (h.margin hdelta) (hdelta k prev current hprev hcurrent)
    · apply hr.partOf VictimCacheinfo.contents _ h.contents
      intro v hv p hp hkey
      exact VictimCacheinfo.tracks_contents hkey (hlocal v hv p hp) (hredirected v hv p hp)
    · exact hr.covers h.covers
    · intro hrewards
      apply hr.partOf VictimCacheinfo.report _ (h.reports hrewards)
      intro v hv p hp hkey
      exact VictimCacheinfo.tracks_report hkey (hlocal v hv p hp) (hredirected v hv p hp)
        (hrewards _ (hcurrentIn v hv).2.2 _ (hprevIn p hp).2.2)
    · exact hr.order

/-- Agreement. In every run whose popularities are separated, whatever is lost, reordered, delayed
or duplicated: what a receiver that has removed no victim of the sender since the last complete
syncset knows about the sender is what the sender computed for the tracked sequence number. -/
theorem agreement {popularities rewards : Set ℚ} (hseparated : Separated popularities)
    {cfg : SyncConfig} {tr : List (SyncAction × Unit)} {n : Network}
    (h : Runs step (Admissible (Within popularities rewards) cfg) (init cfg) tr n) {src dst : Nat}
    (hne : src ≠ dst) (hprocessed : (n.monitor dst src).isFirstCompleteReceived = false)
    (hrefreshed : n.refreshed src dst = true) :
    ∃ current known, (n.issued src dst)[(n.monitor dst src).trackedSeqnum]? = some current ∧
      n.metadata dst src = some known ∧
      (NoMinimalDelta (n.issued src dst) → known.cacheMarginBytes = current.cacheMarginBytes) ∧
      (known.victimCacheinfos.map VictimCacheinfo.contents).Perm
        (current.localSyncedVictims.map VictimCacheinfo.contents) ∧
      (Separated rewards →
        (known.victimCacheinfos.map VictimCacheinfo.report).Perm
          (current.localSyncedVictims.map VictimCacheinfo.report) ∧
        (StrictAscending VictimCacheinfo.localReward current.localSyncedVictims →
          known.victimCacheinfos.map VictimCacheinfo.report =
            current.localSyncedVictims.map VictimCacheinfo.report)) := by
  have hQ := tracked_agrees hseparated rewards
  have hinv : Consistent (Within popularities rewards) (Agrees rewards) cfg n :=
    h.invariant (consistent_init _ _ cfg) fun hn ha hstep => hn.step hQ ha hstep
  obtain ⟨current, known, hcurrent, hmetadata, hdistinct, hknown⟩ :=
    (hinv.receiver src dst hne).known hprocessed
  have hwell := hinv.issuedWell src dst _ _ hcurrent
  have hagrees := hknown.related hrefreshed
  refine ⟨current, known, hcurrent, hmetadata, hagrees.margin, ?_, ?_⟩
  · exact VictimSyncset.perm_contents hdistinct hwell.wellFormed.distinct hagrees.contents
      hagrees.covers
  · intro hrewards
    have hperm := VictimSyncset.perm_report hdistinct hwell.wellFormed.distinct
      (hagrees.reports hrewards) hagrees.covers
    exact ⟨hperm, VictimSyncset.report_eq_of_perm hperm hagrees.order⟩

/-! ## Concrete runs -/

instance (popularities rewards : Set ℚ) [DecidablePred (· ∈ popularities)]
    [DecidablePred (· ∈ rewards)] : DecidablePred (Within popularities rewards) :=
  fun _ => inferInstanceAs (Decidable (_ ∧ _ ∧ _))

/-- Two victims for each edge, and a buffer for one syncset. -/
def twoVictims : SyncConfig := ⟨3, 2, 1⟩

/-- Every key has its beacon at a third edge. -/
def thirdEdgeView : CooperationView := ⟨fun _ => 2, fun _ => []⟩

/-- The popularities `0` and `5`. -/
def zeroOrFive : Set ℚ := {x | x = 0 ∨ x = 5}

instance : DecidablePred (· ∈ zeroOrFive) :=
  fun x => inferInstanceAs (Decidable (x = 0 ∨ x = 5))

theorem separated_zeroOrFive : Separated zeroOrFive := by
  rintro x (rfl | rfl) y (rfl | rfl)
  all_goals decide +kernel

/-- The receiver has other victims than the sender computed, or in another order. -/
def OtherVictims (n : Network) (src dst : Nat) : Prop :=
  (n.metadata dst src).map (fun known => known.victimCacheinfos.map VictimCacheinfo.contents) ≠
    (n.issued src dst)[(n.monitor dst src).trackedSeqnum]?.map
      fun current => current.localSyncedVictims.map VictimCacheinfo.contents

instance (n : Network) (src dst : Nat) : Decidable (OtherVictims n src dst) :=
  inferInstanceAs (Decidable (_ ≠ _))

/-- Rewards of the victims in the last syncset computed. -/
def lastRewards (n : Network) (src dst : Nat) : List Reward :=
  (n.issued src dst).getLast?.elim [] fun s => s.localSyncedVictims.map VictimCacheinfo.localReward

/-- Edge `0` sends its victims to edge `1`, which applies them; then `between` happens, and edge `0`
sends again. -/
def twoSends (victims : List VictimCacheinfo) (between : SyncAction) : List SyncAction :=
  [.updateSyncedVictims 0 100 victims thirdEdgeView, .send 0 1 100, .deliver 0 thirdEdgeView,
    between, .send 0 1 200]

/-- Right after a receipt that moved the tracked sequence number the receiver has other victims than
the sender computed, which had the given rewards. -/
def Disagreement (rewards : List Reward) (refreshed : Bool) : Prop :=
  ∃ tr n n', Runs step (Admissible (Within zeroOrFive Set.univ) twoVictims) (init twoVictims) tr n ∧
    step n (.deliver 0 thirdEdgeView) = some (n', ()) ∧
    (n.monitor 1 0).trackedSeqnum < (n'.monitor 1 0).trackedSeqnum ∧ OtherVictims n' 0 1 ∧
    lastRewards n' 0 1 = rewards ∧ n'.refreshed 0 1 = refreshed

theorem disagreement_of_any (victims : List VictimCacheinfo) (between : SyncAction)
    {rewards : List Reward} {refreshed : Bool}
    (h : (exec step (Admissible (Within zeroOrFive Set.univ) twoVictims) (init twoVictims)
        (twoSends victims between)).any (fun n =>
          decide
            (Admissible (Within zeroOrFive Set.univ) twoVictims n (.deliver 0 thirdEdgeView)) &&
            (step n (.deliver 0 thirdEdgeView)).any fun r =>
              decide ((n.monitor 1 0).trackedSeqnum < (r.1.monitor 1 0).trackedSeqnum ∧
                OtherVictims r.1 0 1 ∧ lastRewards r.1 0 1 = rewards ∧
                r.1.refreshed 0 1 = refreshed)) = true) :
    Disagreement rewards refreshed := by
  obtain ⟨tr, n, n', b, hrun, -, hstep, hlast⟩ := exists_last_step_of_any
    (p := fun (n n' : Network) => decide ((n.monitor 1 0).trackedSeqnum <
      (n'.monitor 1 0).trackedSeqnum ∧ OtherVictims n' 0 1 ∧ lastRewards n' 0 1 = rewards ∧
      n'.refreshed 0 1 = refreshed)) h
  exact ⟨tr, n, n', hrun, hstep, of_decide_eq_true hlast⟩

open VictimSyncset (oneByteVictim)

/-- Right after a receiver has processed a syncset it may know other victims than the sender
computed: if it removed one before, if two rewards pass for equal, and if two rewards are equal. -/
theorem agreement_not_exact :
    Separated zeroOrFive ∧ Disagreement [1] false ∧ Disagreement [1, 21 / 20] true ∧
      Disagreement [1, 1] true := by
  refine ⟨?_, ?_, ?_, ?_⟩
  · exact separated_zeroOrFive
  · exact disagreement_of_any [oneByteVictim 1 5 1] (.removeVictims 1 0 [⟨[1]⟩])
      (by decide +kernel)
  · exact disagreement_of_any [oneByteVictim 1 5 1, oneByteVictim 2 5 (21 / 20)]
      (.updateSyncedVictims 0 200
        [oneByteVictim 2 5 1, oneByteVictim 1 5 (21 / 20)] thirdEdgeView) (by decide +kernel)
  · exact disagreement_of_any [oneByteVictim 1 5 1, oneByteVictim 2 5 1]
      (.updateSyncedVictims 0 200 [oneByteVictim 2 5 1, oneByteVictim 1 5 1] thirdEdgeView)
        (by decide +kernel)

/-- A victim is replaced between two sends, and the receiver follows. -/
theorem agreement_secondSend :
    ∃ tr n current known,
      Runs step (Admissible (Within zeroOrFive {1, 2, 3}) twoVictims) (init twoVictims) tr n ∧
      (n.monitor 1 0).trackedSeqnum = 1 ∧ (n.issued 0 1)[1]? = some current ∧
      n.metadata 1 0 = some known ∧
      (known.victimCacheinfos.map VictimCacheinfo.contents).Perm
        (current.localSyncedVictims.map VictimCacheinfo.contents) := by
  have hexec : (exec step (Admissible (Within zeroOrFive {1, 2, 3}) twoVictims) (init twoVictims)
      (twoSends [oneByteVictim 1 5 1, oneByteVictim 2 5 2]
        (.updateSyncedVictims 0 200 [oneByteVictim 2 0 2, oneByteVictim 3 5 3] thirdEdgeView) ++
        [.deliver 0 thirdEdgeView])).any (fun n =>
      decide ((n.monitor 1 0).isFirstCompleteReceived = false ∧ n.refreshed 0 1 = true ∧
        (n.monitor 1 0).trackedSeqnum = 1)) = true := by
    decide +kernel
  obtain ⟨tr, n, hrun, -, hlast⟩ := exists_runs_of_any hexec
  obtain ⟨hfirst, hrefreshed, htracked⟩ := of_decide_eq_true hlast
  obtain ⟨current, known, hcurrent, hknown, -, hperm, -⟩ :=
    agreement separated_zeroOrFive hrun (by decide : 0 ≠ 1) hfirst hrefreshed
  rw [htracked] at hcurrent
  exact ⟨tr, n, current, known, hrun, htracked, hcurrent, hknown, hperm⟩

end Covered.Victim.Network
