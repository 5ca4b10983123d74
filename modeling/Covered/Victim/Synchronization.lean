import Covered.Lib.Execution
import Covered.Victim.VictimTracker

/-!
# Victim synchronization over a network

Edges with a victim tracker each piggyback syncsets to each other. Messages may be delayed,
reordered, duplicated and lost. Between messages an edge updates its own victims, and a placement
removes victims of an edge from a tracker.

`Network` adds two histories to the trackers and the messages in flight: `issued` has the complete
syncsets that an edge has computed for another one, by sequence number, and `refreshed` says whether
the receiver has removed no victim of the sender since it last applied a complete syncset of it.

`Consistent` is the invariant: every message is one of the syncsets issued, complete or compressed
against its predecessor, and what a receiver knows about a sender is a reconstruction of the issued
syncset with the tracked sequence number. It is stated for any relation `Q` between an issued
syncset and its reconstruction that round trips keep (`Tracked`), so that the theorems below differ
in `Q` only.
-/

set_option autoImplicit false

namespace Covered.Victim

open Common Cooperation Lib Lib.Checked Lib.Execution Lib.SortBy Function List VictimTracker
open VictimCacheinfo
open VictimsyncMonitor
open VictimSyncset

/-! ## The network -/

/-- A syncset in flight. -/
structure SyncMessage where
  src : Nat
  dst : Nat
  syncset : VictimSyncset

/-- The configuration that all edges share. -/
structure SyncConfig where
  edgecnt : Nat
  peredgeSyncedVictimcnt : Nat
  peredgeMonitoredVictimsetcnt : Nat

/-- All trackers, the messages in flight, and the histories. -/
structure Network where
  trackers : Nat → VictimTracker
  inFlight : List SyncMessage
  issued : Nat → Nat → List VictimSyncset
  refreshed : Nat → Nat → Bool

inductive SyncAction
  | updateCacheMargin (edge cacheMarginBytes : Nat)
  | updateSyncedVictims (edge cacheMarginBytes : Nat) (victims : List VictimCacheinfo)
      (view : CooperationView)
  | updateBeaconedDirinfo (edge : Nat) (key : Key) (isAdmit : Bool) (directoryInfo : DirectoryInfo)
  | removeVictims (edge victimEdge : Nat) (victimKeyset : List Key)
  | send (src dst latestCacheMarginBytes : Nat)
  | deliver (index : Nat) (view : CooperationView)
  | deliverCopy (index : Nat) (view : CooperationView)
  | lose (index : Nat)

namespace Network

def init (cfg : SyncConfig) : Network where
  trackers := fun e => VictimTracker.create e cfg.edgecnt cfg.peredgeSyncedVictimcnt
    cfg.peredgeMonitoredVictimsetcnt
  inFlight := []
  issued := fun _ _ => []
  refreshed := fun _ _ => false

/-- The monitor of an edge for another one. -/
def monitor (n : Network) (edge other : Nat) : VictimsyncMonitor :=
  (n.trackers edge).peredgeVictimsyncMonitor other

/-- What an edge knows about the victims of another one. -/
def metadata (n : Network) (edge other : Nat) : Option EdgelevelVictimMetadata :=
  (n.trackers edge).peredgeVictimMetadata other

def setTracker (n : Network) (edge : Nat) (t : VictimTracker) : Network :=
  { n with trackers := Function.update n.trackers edge t }

/-- The value of a history with an entry replaced. -/
def updatePair {α : Type} (f : Nat → Nat → α) (src dst : Nat) (x : α) : Nat → Nat → α :=
  fun s d => if s = src ∧ d = dst then x else f s d

/-- The receiver will apply the complete syncset. -/
def Refreshes (m : VictimsyncMonitor) (s : VictimSyncset) : Prop :=
  s.isComplete = true ∧ (m.isFirstCompleteReceived = true ∨ m.trackedSeqnum < s.seqnum)

instance (m : VictimsyncMonitor) (s : VictimSyncset) : Decidable (Refreshes m s) :=
  inferInstanceAs (Decidable (_ ∧ (_ ∨ _)))

/-- The destination of a message processes it. -/
def receive (n : Network) (msg : SyncMessage) (view : CooperationView) : Option Network := do
  let t ← (n.trackers msg.dst).updateForNeighborVictimSyncset msg.src msg.syncset view
  let refreshed := n.refreshed msg.src msg.dst ||
    decide (Refreshes (n.monitor msg.dst msg.src) msg.syncset)
  return { n.setTracker msg.dst t with
    refreshed := updatePair n.refreshed msg.src msg.dst refreshed }

/-- The source computes a syncset for the destination and sends it. -/
def send (n : Network) (src dst latestCacheMarginBytes : Nat) : Option Network := do
  let (t, final) ← (n.trackers src).getLocalVictimSyncsetForSynchronization dst
    latestCacheMarginBytes
  let n' := n.setTracker src t
  return { n' with
    inFlight := n.inFlight ++ [⟨src, dst, final⟩]
    issued := updatePair n.issued src dst
      (n.issued src dst ++ (n'.monitor src dst).prevVictimSyncset.toList) }

def step (n : Network) : SyncAction → Option (Network × Unit)
  | .updateCacheMargin edge bytes =>
      some (n.setTracker edge ((n.trackers edge).updateLocalCacheMarginBytes bytes), ())
  | .updateSyncedVictims edge bytes victims view => do
      let t ← (n.trackers edge).updateLocalSyncedVictims bytes victims view
      return (n.setTracker edge t, ())
  | .updateBeaconedDirinfo edge key isAdmit directoryInfo => do
      let t ← (n.trackers edge).updateLocalBeaconedVictimDirinfo key isAdmit directoryInfo
      return (n.setTracker edge t, ())
  | .removeVictims edge victimEdge victimKeyset => do
      let t ← (n.trackers edge).removeVictimsForGivenEdge victimEdge victimKeyset
      return ({ n.setTracker edge t with
        refreshed := updatePair n.refreshed victimEdge edge false }, ())
  | .send src dst bytes => do
      let n' ← n.send src dst bytes
      return (n', ())
  | .deliver index view =>
      match n.inFlight[index]? with
      | none => some (n, ())
      | some msg => do
          let n' ← n.receive msg view
          return ({ n' with inFlight := n.inFlight.eraseIdx index }, ())
  | .deliverCopy index view =>
      match n.inFlight[index]? with
      | none => some (n, ())
      | some msg => do
          let n' ← n.receive msg view
          return (n', ())
  | .lose index => some ({ n with inFlight := n.inFlight.eraseIdx index }, ())

/-- What the callers of the trackers promise. The victims come from the local cache: complete, with
distinct keys, at most the configured number, and with the property `V`. Free bytes are 64-bit
values, and an edge does not synchronize with itself. -/
def Admissible (V : VictimCacheinfo → Prop) (cfg : SyncConfig) : Network → SyncAction → Prop
  | _, .updateCacheMargin _ bytes => bytes < uint64Limit
  | _, .updateSyncedVictims _ bytes victims _ => bytes < uint64Limit ∧
      (∀ v ∈ victims, v.isComplete = true ∧ V v) ∧ VictimSyncset.DistinctVictims victims ∧
      victims.length ≤ cfg.peredgeSyncedVictimcnt
  | _, .send src dst bytes => src ≠ dst ∧ bytes < uint64Limit
  | _, _ => True

instance (V : VictimCacheinfo → Prop) [DecidablePred V] (cfg : SyncConfig) (n : Network)
    (a : SyncAction) : Decidable (Admissible V cfg n a) :=
  match a with
  | .updateCacheMargin _ _ => inferInstanceAs (Decidable (_ < _))
  | .updateSyncedVictims _ _ victims _ =>
      inferInstanceAs (Decidable (_ ∧ (∀ v ∈ victims, v.isComplete = true ∧ V v) ∧ _ ∧ _))
  | .send _ _ _ => inferInstanceAs (Decidable (_ ∧ _))
  | .updateBeaconedDirinfo _ _ _ _ => .isTrue trivial
  | .removeVictims _ _ _ => .isTrue trivial
  | .deliver _ _ => .isTrue trivial
  | .deliverCopy _ _ => .isTrue trivial
  | .lose _ => .isTrue trivial

/-! ## Issued syncsets and their reconstructions -/

/-- A syncset that was sent: an issued one itself, or its compression against its predecessor. -/
def Genuine (issued : List VictimSyncset) (s : VictimSyncset) : Prop :=
  (s.isComplete = true ∧ issued[s.seqnum]? = some s) ∨
    (s.isCompressed = true ∧ ∃ k current prev, s.seqnum = k + 1 ∧
      issued[k + 1]? = some current ∧ issued[k]? = some prev ∧
      VictimSyncset.CompressOf current prev s)

/-- What every issued syncset has. -/
structure IssuedWell (V : VictimCacheinfo → Prop) (cnt seqnum : Nat)
    (s : VictimSyncset) : Prop where
  wellFormed : s.WellFormed
  seqnum_eq : s.seqnum = seqnum
  length_le : s.localSyncedVictims.length ≤ cnt
  victims : ∀ v ∈ s.localSyncedVictims, V v

/-- A relation between an issued syncset and the free bytes and victims reconstructed for it, given
all issued syncsets: it holds of the syncset itself, later syncsets do not matter, and the round
trip over the predecessor keeps it. -/
structure Tracked (V : VictimCacheinfo → Prop)
    (Q : List VictimSyncset → VictimSyncset → Nat → List VictimCacheinfo → Prop) : Prop where
  fresh : ∀ issued s, Q issued s s.cacheMarginBytes s.localSyncedVictims
  extend : ∀ {issued s bytes victims} (later : VictimSyncset), Q issued s bytes victims →
    Q (issued ++ [later]) s bytes victims
  roundTrip : ∀ {issued k current prev existing r}, issued[k]? = some prev →
    issued[k + 1]? = some current → (∀ v ∈ prev.localSyncedVictims, V v) →
    (∀ v ∈ current.localSyncedVictims, V v) →
    VictimSyncset.RoundTrip current prev existing r →
    Q issued prev existing.cacheMarginBytes existing.localSyncedVictims →
    Q issued current r.cacheMarginBytes r.localSyncedVictims

theorem Genuine.seqnum_lt {issued : List VictimSyncset} {s : VictimSyncset}
    (h : Genuine issued s) : s.seqnum < issued.length := by
  rcases h with ⟨-, hmem⟩ | ⟨-, k, current, -, hk, hcurrent, -⟩
  · exact (List.getElem?_eq_some_iff.1 hmem).1
  · rw [hk]
    exact (List.getElem?_eq_some_iff.1 hcurrent).1

section Reconstruction

variable (V : VictimCacheinfo → Prop)
  (Q : List VictimSyncset → VictimSyncset → Nat → List VictimCacheinfo → Prop)

/-- Free bytes and victims that a receiver may have for an issued syncset: at most its bytes and
some of its keys, and `Q` if no victim was removed meanwhile. -/
structure KnownFrom (issued : List VictimSyncset) (fresh : Bool) (current : VictimSyncset)
    (bytes : Nat) (victims : List VictimCacheinfo) : Prop where
  margin_le : bytes ≤ current.cacheMarginBytes
  partOf : VictimSyncset.PartOf VictimCacheinfo.key victims current.localSyncedVictims
  related : fresh = true → Q issued current bytes victims

/-- A reconstruction of the issued syncset with the same sequence number. -/
def Rebuilt (issued : List VictimSyncset) (fresh : Bool) (s : VictimSyncset) : Prop :=
  s.WellFormed ∧ ∃ current, issued[s.seqnum]? = some current ∧
    KnownFrom Q issued fresh current s.cacheMarginBytes s.localSyncedVictims

variable {V Q} {cnt : Nat} {issued : List VictimSyncset} {fresh : Bool}

theorem tracks_key (v p : VictimCacheinfo) (hkey : v.key = p.key) :
    VictimCacheinfo.Tracks key v p := by
  intro d existing hd hsame
  refine ⟨fun _ => hsame.trans hkey.symm, fun r hr => ?_⟩
  exact (recover_eq_some hr).2.2.2.1.trans (hsame.trans hkey.symm)

/-- A compressed syncset that was sent recovers the next reconstruction. -/
theorem rebuilt_recover (hQ : Tracked V Q)
    (hissued : ∀ k current, issued[k]? = some current → IssuedWell V cnt k current)
    (hlimit : issued.length < uint64Limit) {c existing : VictimSyncset}
    (hc : Genuine issued c) (hcompressed : c.isCompressed = true)
    (hexisting : Rebuilt Q issued fresh existing) (hseqnum : c.seqnum = existing.seqnum + 1) :
    ∃ r, recover c existing = some r ∧ Rebuilt Q issued fresh r := by
  obtain ⟨hwf, prev, hprev, hknown⟩ := hexisting
  rcases hc with ⟨hcomplete, -⟩ | ⟨-, k, current, prev', hk, hcurrent, hprev', hof⟩
  · rw [isComplete_eq_not_isCompressed, hcompressed] at hcomplete
    cases hcomplete
  · have hkeq : k = existing.seqnum := by omega
    subst hkeq
    rw [hprev, Option.some.injEq] at hprev'
    subst hprev'
    have hwell := hissued _ _ hcurrent
    have hwell' := hissued _ _ hprev
    have hlt : existing.seqnum + 1 < issued.length := (List.getElem?_eq_some_iff.1 hcurrent).1
    obtain ⟨r, hrecover, -, hr⟩ := roundTrip_spec hwell.wellFormed
      hwell'.wellFormed hwf hof hcompressed hwell.seqnum_eq
      (by rw [hwell.seqnum_eq]; omega) hknown.margin_le
    refine ⟨r, hrecover, hr.wellFormed, current, ?_, hr.margin_le, ?_, fun hfresh => ?_⟩
    · rw [hr.seqnum, hwell.seqnum_eq]
      exact hcurrent
    · exact hr.partOf key (fun v _ p _ hkey => tracks_key v p hkey) hknown.partOf
    · exact hQ.roundTrip hprev hcurrent hwell'.victims hwell.victims hr (hknown.related hfresh)

/-- A complete syncset that was sent is a reconstruction of itself. -/
theorem rebuilt_self (hQ : Tracked V Q)
    (hissued : ∀ k current, issued[k]? = some current → IssuedWell V cnt k current)
    {s : VictimSyncset} (hs : Genuine issued s) (hcomplete : s.isComplete = true) :
    Rebuilt Q issued fresh s := by
  rcases hs with ⟨-, hmem⟩ | ⟨hcompressed, -⟩
  · exact ⟨(hissued _ _ hmem).wellFormed, s, hmem, le_refl _, partOf_refl _ _,
      fun _ => hQ.fresh issued s⟩
  · rw [isComplete_eq_not_isCompressed, hcompressed] at hcomplete
    cases hcomplete

/-- A receiver has at most as many victims as the syncset they come from. -/
theorem length_le_of_partOf {victims reference : List VictimCacheinfo}
    (hdistinct : VictimSyncset.DistinctVictims victims)
    (hpart : VictimSyncset.PartOf key victims reference) :
    victims.length ≤ reference.length := by
  have hsub : victims.map key ⊆ reference.map key := by
    intro key hkey
    obtain ⟨v, hv, rfl⟩ := mem_map.1 hkey
    obtain ⟨w, hw, -⟩ := hpart v.key v ((KeyedList.find_eq_some_iff hdistinct).2 ⟨hv, rfl⟩)
    rw [← KeyedList.key_of_find hw]
    exact mem_map_of_mem (KeyedList.mem_of_find hw)
  have hle := (subperm_of_subset hdistinct hsub).length_le
  rwa [length_map, length_map] at hle

end Reconstruction

/-! ## The invariant of one direction -/

/-- The sender part of a monitor against the issued syncsets. -/
structure SenderOk (issued : List VictimSyncset) (m : VictimsyncMonitor) : Prop where
  curSeqnum : m.curSeqnum = issued.length
  limit : issued.length < uint64Limit
  prev : ∀ p, m.prevVictimSyncset = some p → ∃ k, issued.length = k + 1 ∧ issued[k]? = some p

/-- The receiver part of a monitor and what is known about the sender, against the issued
syncsets. -/
structure ReceiverOk (Q : List VictimSyncset → VictimSyncset → Nat → List VictimCacheinfo → Prop)
    (cnt : Nat) (issued : List VictimSyncset) (fresh : Bool) (m : VictimsyncMonitor)
    (metadata : Option EdgelevelVictimMetadata) : Prop where
  receptive : m.Receptive cnt
  genuine : ∀ s ∈ m.cachedVictimSyncsets, Genuine issued s
  waiting : m.waitForCompleteVictimSyncset = true → m.enforcementSeqnum < issued.length
  known : m.isFirstCompleteReceived = false → ∃ current known,
    issued[m.trackedSeqnum]? = some current ∧ metadata = some known ∧
    VictimSyncset.DistinctVictims known.victimCacheinfos ∧
    KnownFrom Q issued fresh current known.cacheMarginBytes known.victimCacheinfos

section Receipt

variable {V : VictimCacheinfo → Prop}
  {Q : List VictimSyncset → VictimSyncset → Nat → List VictimCacheinfo → Prop}
  {cnt setcnt src : Nat} {issued : List VictimSyncset} {fresh : Bool} {t : VictimTracker}
  {neighbor : VictimSyncset} {m m' : VictimsyncMonitor} {out : Option VictimSyncset}
  {metadata : Option EdgelevelVictimMetadata}

theorem receiverOk_obeyEnforcement
    (h : ReceiverOk Q setcnt issued fresh (t.peredgeVictimsyncMonitor src) metadata) :
    ReceiverOk Q setcnt issued fresh (t.obeyEnforcement src neighbor) metadata := by
  unfold obeyEnforcement
  split
  · have hm := h.receptive
    exact ⟨⟨hm.bound, hm.compressed, hm.ahead, hm.first, hm.flag, hm.waiting⟩, h.genuine,
      h.waiting, h.known⟩
  · exact h

theorem senderOk_obeyEnforcement (neighbor : VictimSyncset)
    (h : SenderOk issued (t.peredgeVictimsyncMonitor src)) :
    SenderOk issued (t.obeyEnforcement src neighbor) := by
  unfold obeyEnforcement
  split
  · exact ⟨h.curSeqnum, h.limit, fun p hp => by cases hp⟩
  · exact h

theorem obeyEnforcement_eq (t : VictimTracker) (src : Nat) (neighbor : VictimSyncset) :
    (t.obeyEnforcement src neighbor).trackedSeqnum =
      (t.peredgeVictimsyncMonitor src).trackedSeqnum ∧
    (t.obeyEnforcement src neighbor).isFirstCompleteReceived =
      (t.peredgeVictimsyncMonitor src).isFirstCompleteReceived ∧
    (t.obeyEnforcement src neighbor).cachedVictimSyncsets =
      (t.peredgeVictimsyncMonitor src).cachedVictimSyncsets ∧
    (t.obeyEnforcement src neighbor).needEnforcement =
      (t.peredgeVictimsyncMonitor src).needEnforcement ∧
    (t.obeyEnforcement src neighbor).enforcementSeqnum =
      (t.peredgeVictimsyncMonitor src).enforcementSeqnum ∧
    (t.obeyEnforcement src neighbor).waitForCompleteVictimSyncset =
      (t.peredgeVictimsyncMonitor src).waitForCompleteVictimSyncset := by
  unfold obeyEnforcement
  split
  · exact ⟨rfl, rfl, rfl, rfl, rfl, rfl⟩
  · exact ⟨rfl, rfl, rfl, rfl, rfl, rfl⟩

/-- What the tracker has for a sender is a reconstruction of the tracked syncset. -/
theorem rebuilt_existing
    (hissued : ∀ k current, issued[k]? = some current → IssuedWell V cnt k current)
    (hcomplete : t.CompleteMetadata)
    (hreceiver : ReceiverOk Q setcnt issued fresh (t.peredgeVictimsyncMonitor src)
      (t.peredgeVictimMetadata src))
    (hfirst : (t.peredgeVictimsyncMonitor src).isFirstCompleteReceived = false) :
    ∃ e, t.existingVictimSyncset src = some e ∧
      e.seqnum = (t.peredgeVictimsyncMonitor src).trackedSeqnum ∧ Rebuilt Q issued fresh e := by
  obtain ⟨s, hs, hscomplete, hmargin, hvictims, hdirinfos⟩ := t.getVictimSyncset_spec src
  obtain ⟨current, known, hcurrent, hmetadata, hdistinct, hknown⟩ := hreceiver.known hfirst
  rw [cacheMarginOf, hmetadata] at hmargin
  have hvictims' : s.localSyncedVictims = known.victimCacheinfos := by
    rw [hvictims, victimsOf, hmetadata]
    rfl
  refine ⟨s.setSeqnum (t.peredgeVictimsyncMonitor src).trackedSeqnum, ?_, rfl,
    ⟨⟨?_, ?_, ?_⟩, ?_, ?_⟩,
    current, hcurrent, ?_⟩
  · simp only [existingVictimSyncset, hs, some_bind, Option.pure_def]
  · exact hscomplete
  · intro v hv
    exact hcomplete src v (hvictims ▸ hv)
  · exact hdirinfos
  · exact hvictims' ▸ hdistinct
  · have hle := hknown.margin_le
    have hlt := (hissued _ _ hcurrent).wellFormed.margin_lt
    exact lt_of_le_of_lt (hmargin ▸ hle) hlt
  · constructor
    · exact hmargin ▸ hknown.margin_le
    · exact hvictims' ▸ hknown.partOf
    · intro hfresh
      have hq := hknown.related hfresh
      exact hvictims' ▸ (hmargin ▸ hq)

/-- Whether the knowledge about a sender is fresh after a receipt. -/
def freshAfter (fresh : Bool) (m : VictimsyncMonitor) (neighbor : VictimSyncset) : Bool :=
  fresh || decide (Refreshes m neighbor)

theorem freshAfter_of_compressed (hcompressed : neighbor.isCompressed = true) :
    freshAfter fresh m neighbor = fresh := by
  have hnot : ¬ Refreshes m neighbor := by
    rintro ⟨hcomplete, -⟩
    rw [isComplete_eq_not_isCompressed, hcompressed] at hcomplete
    cases hcomplete
  simp [freshAfter, hnot]

section Sent

variable (hQ : Tracked V Q)
  (hissued : ∀ k current, issued[k]? = some current → IssuedWell V cnt k current)
  (hlimit : issued.length < uint64Limit) (hcomplete : t.CompleteMetadata)
  (hreceiver : ReceiverOk Q setcnt issued fresh (t.peredgeVictimsyncMonitor src)
    (t.peredgeVictimMetadata src))
  (hgenuine : Genuine issued neighbor)
include hQ hissued hlimit hcomplete hreceiver hgenuine

/-- A matching compressed syncset is recovered against what the tracker has. -/
theorem recover_matched (hcompressed : neighbor.isCompressed = true)
    (hfirst : (t.peredgeVictimsyncMonitor src).isFirstCompleteReceived = false)
    (hseqnum : neighbor.seqnum = (t.peredgeVictimsyncMonitor src).trackedSeqnum + 1) :
    ∃ e r, t.existingVictimSyncset src = some e ∧ e.isComplete = true ∧
      recover neighbor e = some r ∧ r.isComplete = true ∧
      Rebuilt Q issued (freshAfter fresh m neighbor) r := by
  obtain ⟨e, he, heseqnum, hrebuilt⟩ := rebuilt_existing hissued hcomplete hreceiver hfirst
  obtain ⟨r, hr, hrr⟩ := rebuilt_recover hQ hissued hlimit hgenuine hcompressed hrebuilt
    (by rw [hseqnum, heseqnum])
  rw [freshAfter_of_compressed hcompressed]
  exact ⟨e, r, he, hrebuilt.1.complete, hr, hrr.1.complete, hrr⟩

/-- Inversion of a receipt of a syncset that was sent. -/
theorem receipt_of_receive
    (h : (t.obeyEnforcement src neighbor).receive setcnt (t.existingVictimSyncset src) neighbor =
      some (m', out)) :
    VictimsyncMonitor.Receipt
      (Rebuilt Q issued (freshAfter fresh (t.peredgeVictimsyncMonitor src) neighbor)) setcnt
      (t.obeyEnforcement src neighbor) neighbor m' out := by
  have hobey : ReceiverOk Q setcnt issued fresh (t.obeyEnforcement src neighbor)
      (t.peredgeVictimMetadata src) := receiverOk_obeyEnforcement hreceiver
  obtain ⟨htracked, hfirst, -⟩ := obeyEnforcement_eq t src neighbor
  refine receive_cases hobey.receptive ?_ ?_ ?_ ?_ h
  · intro s hs b hb hseqnum
    exact rebuilt_recover hQ hissued hlimit (hobey.genuine s hs)
      (hobey.receptive.compressed s hs) hb hseqnum
  · exact fun hkind => rebuilt_self hQ hissued hgenuine hkind
  · intro hcompressed
    rcases hgenuine with ⟨hkind, -⟩ | ⟨-, k, -, -, hk, -⟩
    · rw [isComplete_eq_not_isCompressed, hcompressed] at hkind
      cases hkind
    · omega
  · intro hcompressed hfirst' hseqnum
    exact recover_matched hQ hissued hlimit hcomplete hreceiver hgenuine hcompressed
      (hfirst ▸ hfirst') (htracked ▸ hseqnum)

/-- A receipt of a syncset that was sent does not abort if the buffered sequence numbers are
distinct. -/
theorem receive_total
    (hdistinct : KeyedList.NodupKeys seqnum
      (t.peredgeVictimsyncMonitor src).cachedVictimSyncsets) :
    ∃ m' out, (t.obeyEnforcement src neighbor).receive setcnt (t.existingVictimSyncset src)
      neighbor = some (m', out) := by
  have hobey : ReceiverOk Q setcnt issued fresh (t.obeyEnforcement src neighbor)
      (t.peredgeVictimMetadata src) := receiverOk_obeyEnforcement hreceiver
  obtain ⟨htracked, hfirst, hcached, -⟩ := obeyEnforcement_eq t src neighbor
  have hlt : (t.peredgeVictimsyncMonitor src).trackedSeqnum + 1 < uint64Limit := by
    cases hf : (t.peredgeVictimsyncMonitor src).isFirstCompleteReceived with
    | true =>
      rw [hreceiver.receptive.first hf]
      decide
    | false =>
      obtain ⟨current, -, hcurrent, -⟩ := hreceiver.known hf
      have hbound := (List.getElem?_eq_some_iff.1 hcurrent).1
      omega
  obtain ⟨⟨m', out⟩, h⟩ := receive_isSome
    (R := Rebuilt Q issued (freshAfter fresh (t.peredgeVictimsyncMonitor src) neighbor))
    (t.existingVictimSyncset src) neighbor hobey.receptive
    (hcached ▸ hdistinct)
    (fun s hs b hb hseqnum => rebuilt_recover hQ hissued hlimit (hobey.genuine s hs)
      (hobey.receptive.compressed s hs) hb hseqnum)
    (fun b hb => by
      obtain ⟨hwf, current, hcurrent, -⟩ := hb
      have hbound := (List.getElem?_eq_some_iff.1 hcurrent).1
      exact ⟨hwf.complete, by omega⟩)
    (fun hkind => rebuilt_self hQ hissued hgenuine hkind)
    (fun hcompressed hfirst' hseqnum => recover_matched hQ hissued hlimit hcomplete hreceiver
      hgenuine hcompressed (hfirst ▸ hfirst') (htracked ▸ hseqnum))
    (htracked ▸ hlt)
  exact ⟨m', out, h⟩

end Sent

/-- What is known about the sender after a receipt. -/
def metadataAfter (metadata : Option EdgelevelVictimMetadata) :
    Option VictimSyncset → Option EdgelevelVictimMetadata
  | none => metadata
  | some final => some ⟨final.cacheMarginBytes, final.localSyncedVictims⟩

/-- A receipt keeps the invariant of the direction. -/
theorem receiverOk_receipt {fresh' : Bool} {m₀ : VictimsyncMonitor}
    (hreceiver : ReceiverOk Q setcnt issued fresh m metadata)
    (hgenuine : Genuine issued neighbor)
    (hfresh : fresh' = freshAfter fresh m₀ neighbor)
    (hm₀ : m₀.trackedSeqnum = m.trackedSeqnum ∧
      m₀.isFirstCompleteReceived = m.isFirstCompleteReceived)
    (h : VictimsyncMonitor.Receipt (Rebuilt Q issued fresh') setcnt m neighbor m' out) :
    ReceiverOk Q setcnt issued fresh' m' (metadataAfter metadata out) := by
  refine ⟨h.receptive hreceiver.receptive, ?_, ?_, ?_⟩
  · intro s hs
    rcases h.mem_cached hs with hs | rfl
    · exact hreceiver.genuine s hs
    · exact hgenuine
  · intro hwait
    cases h with
    | applied cached final hnew hkind hR hle hsub hahead =>
      obtain ⟨hwait', henf⟩ := waiting_clearEnforcement hwait
      rw [henf]
      exact hreceiver.waiting hwait'
    | enforced enforcementSeqnum hcompressed hahead hfull hwait' hseen hge =>
      rcases hseen with heq | ⟨s, hs, heq⟩
      · exact heq ▸ hgenuine.seqnum_lt
      · exact heq ▸ (hreceiver.genuine s hs).seqnum_lt
    | _ => exact hreceiver.waiting hwait
  · -- only a syncset that is applied changes what is known, and only then it may become fresh
    have hunchanged : fresh' = fresh → m.isFirstCompleteReceived = false → ∃ current known,
        issued[m.trackedSeqnum]? = some current ∧ metadata = some known ∧
        VictimSyncset.DistinctVictims known.victimCacheinfos ∧
        KnownFrom Q issued fresh' current known.cacheMarginBytes known.victimCacheinfos := by
      intro heq
      rw [heq]
      exact hreceiver.known
    intro hfirst'
    cases h with
    | outdated hfirst hle =>
      refine hunchanged ?_ hfirst
      have hnot : ¬ Refreshes m₀ neighbor := by
        rintro ⟨-, hf | hlt⟩
        · rw [hm₀.2, hfirst] at hf
          cases hf
        · rw [hm₀.1] at hlt
          omega
      simp [hfresh, freshAfter, hnot]
    | applied cached final hnew hkind hR hle hsub hahead =>
      obtain ⟨hwf, current, hcurrent, hknown⟩ := hR
      rw [trackedSeqnum_clearEnforcement]
      exact ⟨current, _, hcurrent, rfl, hwf.distinct, hknown⟩
    | buffered hcompressed hahead hgap hspace =>
      exact hunchanged (hfresh.trans (freshAfter_of_compressed hcompressed)) hfirst'
    | enforced enforcementSeqnum hcompressed hahead hfull hwait' hseen hge =>
      exact hunchanged (hfresh.trans (freshAfter_of_compressed hcompressed)) hfirst'
    | waited hcompressed hahead hfull hwait =>
      exact hunchanged (hfresh.trans (freshAfter_of_compressed hcompressed)) hfirst'

end Receipt

/-! ## The invariant of the network -/

/-- The invariant; see the head of the module. -/
structure Consistent (V : VictimCacheinfo → Prop)
    (Q : List VictimSyncset → VictimSyncset → Nat → List VictimCacheinfo → Prop)
    (cfg : SyncConfig) (n : Network) : Prop where
  config : ∀ e, (n.trackers e).edgeIdx = e ∧
    (n.trackers e).peredgeSyncedVictimcnt = cfg.peredgeSyncedVictimcnt ∧
    (n.trackers e).peredgeMonitoredVictimsetcnt = cfg.peredgeMonitoredVictimsetcnt
  complete : ∀ e, (n.trackers e).CompleteMetadata
  own : ∀ e, VictimSyncset.DistinctVictims ((n.trackers e).victimsOf e) ∧
    ((n.trackers e).victimsOf e).length ≤ cfg.peredgeSyncedVictimcnt ∧
    ∀ v ∈ (n.trackers e).victimsOf e, V v
  issuedWell : ∀ src dst, ∀ k current, (n.issued src dst)[k]? = some current →
    IssuedWell V cfg.peredgeSyncedVictimcnt k current
  sender : ∀ src dst, src ≠ dst → SenderOk (n.issued src dst) (n.monitor src dst)
  receiver : ∀ src dst, src ≠ dst → ReceiverOk Q cfg.peredgeMonitoredVictimsetcnt
    (n.issued src dst) (n.refreshed src dst) (n.monitor dst src) (n.metadata dst src)
  inFlight : ∀ msg ∈ n.inFlight, msg.src ≠ msg.dst ∧
    Genuine (n.issued msg.src msg.dst) msg.syncset

section Steps

variable {V : VictimCacheinfo → Prop}
  {Q : List VictimSyncset → VictimSyncset → Nat → List VictimCacheinfo → Prop}
  {cfg : SyncConfig} {n n' : Network} {e src dst : Nat} {t : VictimTracker}

@[simp] theorem trackers_setTracker (n : Network) (e : Nat) (t : VictimTracker) (a : Nat) :
    (n.setTracker e t).trackers a = if a = e then t else n.trackers a := by
  simp only [setTracker, update_apply]

theorem monitor_setTracker (n : Network) (e : Nat) (t : VictimTracker) (a b : Nat) :
    (n.setTracker e t).monitor a b =
      if a = e then t.peredgeVictimsyncMonitor b else n.monitor a b := by
  rw [monitor, trackers_setTracker]
  split <;> rfl

theorem metadata_setTracker (n : Network) (e : Nat) (t : VictimTracker) (a b : Nat) :
    (n.setTracker e t).metadata a b =
      if a = e then t.peredgeVictimMetadata b else n.metadata a b := by
  rw [metadata, trackers_setTracker]
  split <;> rfl

theorem consistent_init (V : VictimCacheinfo → Prop)
    (Q : List VictimSyncset → VictimSyncset → Nat → List VictimCacheinfo → Prop)
    (cfg : SyncConfig) : Consistent V Q cfg (init cfg) where
  config := fun _ => ⟨rfl, rfl, rfl⟩
  complete := fun _ _ v hv => by cases hv
  own := fun _ => ⟨nodup_nil, Nat.zero_le _, fun v hv => by cases hv⟩
  issuedWell := fun _ _ k current h => by cases h
  sender := by
    intro src dst _
    constructor
    · rfl
    · exact (by decide : 0 < uint64Limit)
    · intro p hp
      cases hp
  receiver := by
    intro src dst _
    constructor
    · exact receptive_default _
    · intro s hs
      cases hs
    · intro h
      cases h
    · intro h
      cases h
  inFlight := fun msg hmsg => by cases hmsg

/-- The same configuration, monitors and knowledge about other edges; the own victims may
change. -/
structure LocalChange (V : VictimCacheinfo → Prop) (cfg : SyncConfig) (e : Nat)
    (t t' : VictimTracker) : Prop where
  edgeIdx : t'.edgeIdx = t.edgeIdx
  syncedVictimcnt : t'.peredgeSyncedVictimcnt = t.peredgeSyncedVictimcnt
  monitoredVictimsetcnt : t'.peredgeMonitoredVictimsetcnt = t.peredgeMonitoredVictimsetcnt
  monitor : t'.peredgeVictimsyncMonitor = t.peredgeVictimsyncMonitor
  metadata : ∀ f, f ≠ e → t'.peredgeVictimMetadata f = t.peredgeVictimMetadata f
  complete : ∀ v ∈ t'.victimsOf e, v.isComplete = true
  own : VictimSyncset.DistinctVictims (t'.victimsOf e) ∧
    (t'.victimsOf e).length ≤ cfg.peredgeSyncedVictimcnt ∧ ∀ v ∈ t'.victimsOf e, V v

/-- A local change keeps the invariant. -/
theorem Consistent.setTracker (h : Consistent V Q cfg n)
    (ht : LocalChange V cfg e (n.trackers e) t) : Consistent V Q cfg (n.setTracker e t) := by
  have hmonitor : ∀ a b, (n.setTracker e t).monitor a b = n.monitor a b := by
    intro a b
    rw [monitor_setTracker]
    split
    · next ha => rw [ht.monitor, ha, Network.monitor]
    · rfl
  have hmetadata : ∀ a b, b ≠ a → (n.setTracker e t).metadata a b = n.metadata a b := by
    intro a b hab
    rw [metadata_setTracker]
    split
    · next ha => rw [ht.metadata b (ha ▸ hab), ha, Network.metadata]
    · rfl
  constructor
  · intro a
    rw [trackers_setTracker]
    split
    · next ha =>
      rw [ht.edgeIdx, ht.syncedVictimcnt, ht.monitoredVictimsetcnt, ha]
      exact h.config e
    · exact h.config a
  · intro a
    rw [trackers_setTracker]
    split
    · intro f v hv
      by_cases hf : f = e
      · exact ht.complete v (hf ▸ hv)
      · rw [victimsOf, ht.metadata f hf] at hv
        exact h.complete e f v hv
    · exact h.complete a
  · intro a
    rw [trackers_setTracker]
    split
    · next ha => exact ha ▸ ht.own
    · exact h.own a
  · exact h.issuedWell
  · intro a b hab
    rw [hmonitor]
    exact h.sender a b hab
  · intro a b hab
    rw [hmonitor, hmetadata b a hab]
    exact h.receiver a b hab
  · exact h.inFlight

variable {bytes : Nat}

variable {victims : List VictimCacheinfo}

theorem localChange_of_sameTracking {t₀ : VictimTracker}
    (hcomplete : ∀ v ∈ victims, v.isComplete = true)
    (hdistinct : VictimSyncset.DistinctVictims victims)
    (hlength : victims.length ≤ cfg.peredgeSyncedVictimcnt) (hV : ∀ v ∈ victims, V v)
    (h : VictimTracker.SameTracking (t₀.withMetadata e bytes victims) t) :
    LocalChange V cfg e t₀ t := by
  have hvictims : t.victimsOf e = victims := by
    rw [victimsOf, h.metadata, metadata_withMetadata, if_pos rfl]
    rfl
  constructor
  · exact h.edgeIdx
  · exact h.syncedVictimcnt
  · exact h.monitoredVictimsetcnt
  · exact h.monitor
  · intro f hf
    rw [h.metadata, metadata_withMetadata, if_neg hf]
  · rw [hvictims]
    exact hcomplete
  · rw [hvictims]
    exact ⟨hdistinct, hlength, hV⟩

theorem Consistent.updateCacheMargin (h : Consistent V Q cfg n) (e bytes : Nat) :
    Consistent V Q cfg
      (n.setTracker e ((n.trackers e).updateLocalCacheMarginBytes bytes)) := by
  apply h.setTracker
  have hsame := (n.trackers e).sameTracking_updateLocalCacheMarginBytes bytes
  rw [(h.config e).1] at hsame
  obtain ⟨hdistinct, hlength, hV⟩ := h.own e
  exact localChange_of_sameTracking (h.complete e e) hdistinct hlength hV hsame

variable {view : CooperationView}

theorem Consistent.updateSyncedVictims (h : Consistent V Q cfg n)
    (hvictims : ∀ v ∈ victims, v.isComplete = true ∧ V v)
    (hdistinct : VictimSyncset.DistinctVictims victims)
    (hstep : (n.trackers e).updateLocalSyncedVictims bytes victims view = some t) :
    Consistent V Q cfg (n.setTracker e t) := by
  obtain ⟨hlength, hsame⟩ := updateLocalSyncedVictims_cases hstep
  obtain ⟨hidx, hcnt, -⟩ := h.config e
  rw [hidx] at hsame
  exact h.setTracker (localChange_of_sameTracking (fun v hv => (hvictims v hv).1) hdistinct
    (hcnt ▸ hlength) (fun v hv => (hvictims v hv).2) hsame)

theorem localChange_of_same {t₀ : VictimTracker}
    (hcomplete : ∀ v ∈ t₀.victimsOf e, v.isComplete = true)
    (hown : VictimSyncset.DistinctVictims (t₀.victimsOf e) ∧
      (t₀.victimsOf e).length ≤ cfg.peredgeSyncedVictimcnt ∧ ∀ v ∈ t₀.victimsOf e, V v)
    (h : VictimTracker.SameTracking t₀ t) : LocalChange V cfg e t₀ t := by
  have hvictims : t.victimsOf e = t₀.victimsOf e := by
    rw [victimsOf, h.metadata, victimsOf]
  constructor
  · exact h.edgeIdx
  · exact h.syncedVictimcnt
  · exact h.monitoredVictimsetcnt
  · exact h.monitor
  · intro f _
    rw [h.metadata]
  · rw [hvictims]
    exact hcomplete
  · rw [hvictims]
    exact hown

/-- The histories with an entry replaced. -/
theorem updatePair_apply {α : Type} (f : Nat → Nat → α) (src dst : Nat) (x : α) (a b : Nat) :
    updatePair f src dst x a b = if a = src ∧ b = dst then x else f a b := rfl

/-- Removal of victims of an edge makes the knowledge about the edge stale. -/
theorem Consistent.removeVictims (h : Consistent V Q cfg n) {victimEdge : Nat}
    {victimKeyset : List Key}
    (hstep : (n.trackers e).removeVictimsForGivenEdge victimEdge victimKeyset = some t) :
    Consistent V Q cfg { n.setTracker e t with
      refreshed := updatePair n.refreshed victimEdge e false } := by
  obtain ⟨metadata, remaining, hmetadata, hsub, hsame⟩ :=
    removeVictimsForGivenEdge_cases hstep
  have hvictimsOf : ∀ f, t.victimsOf f =
      if f = victimEdge then remaining else (n.trackers e).victimsOf f := by
    intro f
    rw [victimsOf, hsame.metadata, metadata_withMetadata]
    split
    · rfl
    · rfl
  have hold : (n.trackers e).victimsOf victimEdge = metadata.victimCacheinfos := by
    rw [victimsOf, hmetadata]
    rfl
  have hsublist : ∀ f, (t.victimsOf f).Sublist ((n.trackers e).victimsOf f) := by
    intro f
    rw [hvictimsOf]
    split
    · next hf => rw [hf, hold]; exact hsub
    · exact List.Sublist.refl _
  have hmonitor : ∀ a b, (n.setTracker e t).monitor a b = n.monitor a b := by
    intro a b
    rw [monitor_setTracker, hsame.monitor]
    split
    · next ha => rw [ha]; rfl
    · rfl
  constructor
  · intro a
    show ((n.setTracker e t).trackers a).edgeIdx = a ∧ _
    rw [trackers_setTracker]
    split
    · next ha =>
      rw [hsame.edgeIdx, hsame.syncedVictimcnt, hsame.monitoredVictimsetcnt, ha]
      exact h.config e
    · exact h.config a
  · intro a
    show ((n.setTracker e t).trackers a).CompleteMetadata
    rw [trackers_setTracker]
    split
    · exact fun f v hv => h.complete e f v ((hsublist f).subset hv)
    · exact h.complete a
  · intro a
    show VictimSyncset.DistinctVictims (((n.setTracker e t).trackers a).victimsOf a) ∧ _
    rw [trackers_setTracker]
    split
    · next ha =>
      obtain ⟨hdistinct, hlength, hV⟩ := h.own e
      rw [ha]
      exact ⟨hdistinct.sublist (hsublist e), le_trans (hsublist e).length_le hlength,
        fun v hv => hV v ((hsublist e).subset hv)⟩
    · exact h.own a
  · exact h.issuedWell
  · intro a b hab
    show SenderOk (n.issued a b) ((n.setTracker e t).monitor a b)
    rw [hmonitor]
    exact h.sender a b hab
  · intro a b hab
    show ReceiverOk Q _ (n.issued a b) (updatePair n.refreshed victimEdge e false a b)
      ((n.setTracker e t).monitor b a) ((n.setTracker e t).metadata b a)
    have hr := h.receiver a b hab
    rw [hmonitor, metadata_setTracker, updatePair_apply]
    by_cases hb : b = e
    · subst hb
      rw [if_pos rfl, hsame.metadata, metadata_withMetadata]
      by_cases ha : a = victimEdge
      · subst ha
        rw [if_pos rfl, if_pos ⟨rfl, rfl⟩]
        refine ⟨hr.receptive, hr.genuine, hr.waiting, fun hfirst => ?_⟩
        obtain ⟨current, known, hcurrent, hknownEq, hdistinct, hknown⟩ := hr.known hfirst
        rw [Network.metadata, hmetadata, Option.some.injEq] at hknownEq
        subst hknownEq
        refine ⟨current, _, hcurrent, rfl, hdistinct.sublist hsub, hknown.margin_le, ?_,
          fun hf => by cases hf⟩
        -- a victim that remains is found as before
        intro key v hv
        have hmem := (KeyedList.find_eq_some_iff (hdistinct.sublist hsub)).1 hv
        exact hknown.partOf key v
          ((KeyedList.find_eq_some_iff hdistinct).2 ⟨hsub.subset hmem.1, hmem.2⟩)
      · rw [if_neg ha, if_neg (fun hc => ha hc.1)]
        exact hr
    · rw [if_neg hb, if_neg (fun hc => hb hc.2)]
      exact hr
  · exact h.inFlight

/-! ### A send -/

variable {issued : List VictimSyncset}

theorem getElem?_append_of_some {k : Nat} {s later : VictimSyncset} (h : issued[k]? = some s) :
    (issued ++ [later])[k]? = some s := by
  rw [getElem?_append_left (List.getElem?_eq_some_iff.1 h).1]
  exact h

theorem Genuine.extend {s : VictimSyncset} (h : Genuine issued s) (later : VictimSyncset) :
    Genuine (issued ++ [later]) s := by
  rcases h with ⟨hcomplete, hmem⟩ | ⟨hcompressed, k, current, prev, hk, hcurrent, hprev, hof⟩
  · exact .inl ⟨hcomplete, getElem?_append_of_some hmem⟩
  · exact .inr ⟨hcompressed, k, current, prev, hk, getElem?_append_of_some hcurrent,
      getElem?_append_of_some hprev, hof⟩

/-- A further issued syncset does not change what the receiver has. -/
theorem ReceiverOk.extend (hQ : Tracked V Q) {setcnt : Nat} {fresh : Bool} {m : VictimsyncMonitor}
    {metadata : Option EdgelevelVictimMetadata} (h : ReceiverOk Q setcnt issued fresh m metadata)
    (later : VictimSyncset) :
    ReceiverOk Q setcnt (issued ++ [later]) fresh m metadata := by
  refine ⟨h.receptive, fun s hs => (h.genuine s hs).extend later, ?_, ?_⟩
  · intro hwait
    rw [length_append]
    exact lt_of_lt_of_le (h.waiting hwait) (Nat.le_add_right _ _)
  · intro hfirst
    obtain ⟨current, known, hcurrent, hknownEq, hdistinct, hknown⟩ := h.known hfirst
    exact ⟨current, known, getElem?_append_of_some hcurrent, hknownEq, hdistinct,
      hknown.margin_le, hknown.partOf, fun hf => hQ.extend later (hknown.related hf)⟩

/-- A send: the syncset computed is issued, and what is sent is this syncset or its compression. -/
theorem send_cases (h : Consistent V Q cfg n) (hne : src ≠ dst) (hbytes : bytes < uint64Limit)
    (hstep : n.send src dst bytes = some n') :
    ∃ numbered final,
      IssuedWell V cfg.peredgeSyncedVictimcnt (n.issued src dst).length numbered ∧
      final.isEnforceComplete = (n.monitor src dst).needEnforcement ∧
      final.seqnum = (n.issued src dst).length ∧
      Genuine (n.issued src dst ++ [numbered]) final ∧
      ((n.monitor src dst).prevVictimSyncset = none → final.isComplete = true) ∧
      (n.issued src dst).length + 1 < uint64Limit ∧
      n' = { n.setTracker src ((n.trackers src).setMonitor dst { n.monitor src dst with
          curSeqnum := (n.issued src dst).length + 1
          needEnforcement := false
          prevVictimSyncset := some numbered }) with
        inFlight := n.inFlight ++ [⟨src, dst, final⟩]
        issued := updatePair n.issued src dst (n.issued src dst ++ [numbered]) } := by
  simp only [Network.send] at hstep
  obtain ⟨⟨t, final⟩, hget, hstep⟩ := bind_eq_some_iff.1 hstep
  rw [pure_eq_some_iff] at hstep
  obtain ⟨current, m, hcomplete, hmargin, hvictims, hdirinfos, hreplace, rfl⟩ :=
    getLocalVictimSyncset_cases hget
  obtain ⟨hlimit, rfl, hfinal⟩ := replacePrevVictimSyncset_cases hreplace
  have hsender := h.sender src dst hne
  have hcur : ((n.trackers src).peredgeVictimsyncMonitor dst).curSeqnum =
      (n.issued src dst).length := hsender.curSeqnum
  obtain ⟨hdistinct, hlength, hV⟩ := h.own src
  rw [(h.config src).1] at hvictims
  have hwf : current.WellFormed := by
    refine ⟨⟨hcomplete, ?_, hdirinfos⟩, ?_, ?_⟩
    · rw [hvictims]
      exact h.complete src src
    · rw [hvictims]
      exact hdistinct
    · rw [hmargin]
      exact hbytes
  rw [hcur] at hfinal hlimit hstep
  generalize hnumbered : (current.setSeqnum (n.issued src dst).length).setEnforceComplete
    ((n.trackers src).peredgeVictimsyncMonitor dst).needEnforcement = numbered at hfinal hstep
  have hnwf : numbered.WellFormed := by
    subst hnumbered
    exact ⟨⟨hwf.complete, hwf.victims, hwf.dirinfos⟩, hwf.distinct, hwf.margin_lt⟩
  have hnseq : numbered.seqnum = (n.issued src dst).length := by
    subst hnumbered
    rfl
  have hnflag : numbered.isEnforceComplete = (n.monitor src dst).needEnforcement := by
    subst hnumbered
    rfl
  have hnvictims : numbered.localSyncedVictims = (n.trackers src).victimsOf src := by
    subst hnumbered
    exact hvictims
  have hlast : (n.issued src dst ++ [numbered])[numbered.seqnum]? = some numbered := by
    rw [hnseq]
    exact getElem?_concat_length
  -- what is sent is the numbered syncset, or its compression against the last one issued
  have hkind : (final = numbered ∧ (n.monitor src dst).prevVictimSyncset = none) ∨
      ∃ k prev, (n.issued src dst).length = k + 1 ∧ (n.issued src dst)[k]? = some prev ∧
        VictimSyncset.CompressOf numbered prev final ∧
        (n.monitor src dst).prevVictimSyncset = some prev := by
    rcases hfinal with ⟨hnone, heq⟩ | ⟨prev, hprev, hnext, hcompress⟩
    · exact .inl ⟨heq, hnone⟩
    · obtain ⟨k, hk, hprevIssued⟩ := hsender.prev prev hprev
      have hpwell := h.issuedWell src dst k prev hprevIssued
      obtain ⟨c, hc, hof⟩ := compress_spec hnwf.toAllComplete
        hpwell.wellFormed.toAllComplete (by rw [hnseq, hpwell.seqnum_eq, hk])
        (by rw [hnseq]; omega)
      rw [hcompress, Option.some.injEq] at hc
      subst hc
      exact .inr ⟨k, prev, hk, hprevIssued, hof, hprev⟩
  refine ⟨numbered, final, ⟨hnwf, hnseq, ?_, ?_⟩, ?_, ?_, ?_, ?_, hlimit, ?_⟩
  · rw [hnvictims]
    exact hlength
  · rw [hnvictims]
    exact hV
  · rcases hkind with ⟨rfl, -⟩ | ⟨k, prev, -, -, hof, -⟩
    · exact hnflag
    · exact hof.enforce.trans hnflag
  · rcases hkind with ⟨rfl, -⟩ | ⟨k, prev, -, -, hof, -⟩
    · exact hnseq
    · exact hof.seqnum.trans hnseq
  · rcases hkind with ⟨rfl, -⟩ | ⟨k, prev, hk, hprev, hof, -⟩
    · exact .inl ⟨hnwf.complete, hlast⟩
    · cases hfc : final.isComplete with
      | true =>
        have heq := hof.complete hfc
        subst heq
        exact .inl ⟨hfc, hlast⟩
      | false =>
        have hcompressed := isCompressed_of_not_isComplete
          (s := final) (by rw [hfc]; decide)
        refine .inr ⟨hcompressed, k, numbered, prev, ?_, ?_, getElem?_append_of_some hprev, hof⟩
        · rw [hof.seqnum, hnseq, hk]
        · rw [← hk, ← hnseq]
          exact hlast
  · intro hnone
    rcases hkind with ⟨rfl, -⟩ | ⟨k, prev, -, -, -, hsome⟩
    · exact hnwf.complete
    · rw [hnone] at hsome
      cases hsome
  · rw [← hstep, monitor_setTracker, if_pos rfl]
    simp only [setMonitor, update_self, Option.toList_some]
    rfl

theorem monitor_setMonitor (t : VictimTracker) (e : Nat) (m : VictimsyncMonitor) (f : Nat) :
    (t.setMonitor e m).peredgeVictimsyncMonitor f =
      if f = e then m else t.peredgeVictimsyncMonitor f := by
  simp only [setMonitor, update_apply]

theorem Consistent.send (hQ : Tracked V Q) (h : Consistent V Q cfg n) (hne : src ≠ dst)
    (hbytes : bytes < uint64Limit) (hstep : n.send src dst bytes = some n') :
    Consistent V Q cfg n' := by
  obtain ⟨numbered, final, hwell, -, -, hgenuine, -, hlimit, rfl⟩ :=
    send_cases h hne hbytes hstep
  generalize ht : (n.trackers src).setMonitor dst { n.monitor src dst with
    curSeqnum := (n.issued src dst).length + 1
    needEnforcement := false
    prevVictimSyncset := some numbered } = t
  have hmonitor : ∀ a b, (n.setTracker src t).monitor a b =
      if a = src ∧ b = dst then { n.monitor src dst with
        curSeqnum := (n.issued src dst).length + 1
        needEnforcement := false
        prevVictimSyncset := some numbered } else n.monitor a b := by
    intro a b
    rw [monitor_setTracker, ← ht, monitor_setMonitor]
    by_cases ha : a = src
    · subst ha
      by_cases hb : b = dst
      · rw [if_pos rfl, if_pos hb, if_pos ⟨rfl, hb⟩]
      · rw [if_pos rfl, if_neg hb, if_neg (fun hc => hb hc.2)]
        rfl
    · rw [if_neg ha, if_neg (fun hc => ha hc.1)]
  have hsame : ∀ a, (n.setTracker src t).trackers a =
      if a = src then t else n.trackers a := trackers_setTracker n src t
  constructor
  · intro a
    show ((n.setTracker src t).trackers a).edgeIdx = a ∧ _
    rw [hsame]
    split
    · next ha => rw [← ht, ha]; exact h.config src
    · exact h.config a
  · intro a
    show ((n.setTracker src t).trackers a).CompleteMetadata
    rw [hsame]
    split
    · rw [← ht]; exact h.complete src
    · exact h.complete a
  · intro a
    show VictimSyncset.DistinctVictims (((n.setTracker src t).trackers a).victimsOf a) ∧ _
    rw [hsame]
    split
    · next ha => rw [← ht, ha]; exact h.own src
    · exact h.own a
  · intro a b k current hcurrent
    replace hcurrent : (updatePair n.issued src dst (n.issued src dst ++ [numbered]) a b)[k]? =
      some current := hcurrent
    rw [updatePair_apply] at hcurrent
    split at hcurrent
    · rcases Nat.lt_or_ge k (n.issued src dst).length with hlt | hge
      · rw [getElem?_append_left hlt] at hcurrent
        exact h.issuedWell src dst k current hcurrent
      · have hk : k = (n.issued src dst).length := by
          have := (List.getElem?_eq_some_iff.1 hcurrent).1
          rw [length_append, length_singleton] at this
          omega
        subst hk
        rw [getElem?_concat_length, Option.some.injEq] at hcurrent
        exact hcurrent ▸ hwell
    · exact h.issuedWell a b k current hcurrent
  · intro a b hab
    show SenderOk (updatePair n.issued src dst (n.issued src dst ++ [numbered]) a b)
      ((n.setTracker src t).monitor a b)
    rw [hmonitor, updatePair_apply]
    split
    · refine ⟨by simp, by simpa using hlimit, fun p hp => ?_⟩
      cases hp
      refine ⟨(n.issued src dst).length, by simp, getElem?_concat_length⟩
    · exact h.sender a b hab
  · intro a b hab
    show ReceiverOk Q _ (updatePair n.issued src dst (n.issued src dst ++ [numbered]) a b)
      (n.refreshed a b) ((n.setTracker src t).monitor b a) ((n.setTracker src t).metadata b a)
    have hr := h.receiver a b hab
    have hmetadata : (n.setTracker src t).metadata b a = n.metadata b a := by
      rw [metadata_setTracker, ← ht]
      split
      · next hb => rw [hb]; rfl
      · rfl
    rw [hmetadata, updatePair_apply]
    by_cases hpair : a = src ∧ b = dst
    · -- the direction of the send: only the history grows
      obtain ⟨rfl, rfl⟩ := hpair
      rw [if_pos ⟨rfl, rfl⟩, hmonitor, if_neg (fun hc => hab hc.2)]
      exact hr.extend hQ numbered
    · rw [if_neg hpair, hmonitor]
      split
      · next hback =>
        -- the other direction: only the sender part of the monitor changes
        obtain ⟨rfl, rfl⟩ := hback
        have hm := hr.receptive
        exact ⟨⟨hm.bound, hm.compressed, hm.ahead, hm.first, fun hf => Bool.noConfusion hf,
          hm.waiting⟩, hr.genuine, hr.waiting, hr.known⟩
      · exact hr
  · intro msg hmsg
    show msg.src ≠ msg.dst ∧
      Genuine (updatePair n.issued src dst (n.issued src dst ++ [numbered]) msg.src msg.dst)
        msg.syncset
    rw [updatePair_apply]
    rcases mem_append.1 hmsg with hmsg | hmsg
    · obtain ⟨hne', hg⟩ := h.inFlight msg hmsg
      refine ⟨hne', ?_⟩
      split
      · next hpair =>
        rw [hpair.1, hpair.2] at hg
        exact hg.extend numbered
      · exact hg
    · rw [mem_singleton.1 hmsg]
      exact ⟨hne, by rw [if_pos ⟨rfl, rfl⟩]; exact hgenuine⟩

/-! ### A receipt -/

/-- A receipt: the monitor and the knowledge of the destination about the source change, as the
outcome says. -/
theorem receive_cases (hQ : Tracked V Q) (h : Consistent V Q cfg n) {msg : SyncMessage}
    (hmsg : msg ∈ n.inFlight) (hstep : n.receive msg view = some n') :
    ∃ m' out, VictimsyncMonitor.Receipt
        (Rebuilt Q (n.issued msg.src msg.dst)
          (freshAfter (n.refreshed msg.src msg.dst) (n.monitor msg.dst msg.src) msg.syncset))
        cfg.peredgeMonitoredVictimsetcnt
        ((n.trackers msg.dst).obeyEnforcement msg.src msg.syncset) msg.syncset m' out ∧
      (∀ a b, n'.monitor a b = if a = msg.dst ∧ b = msg.src then m' else n.monitor a b) ∧
      (∀ a b, n'.metadata a b = if a = msg.dst ∧ b = msg.src then
        metadataAfter (n.metadata msg.dst msg.src) out else n.metadata a b) ∧
      (∀ a, (n'.trackers a).edgeIdx = (n.trackers a).edgeIdx ∧
        (n'.trackers a).peredgeSyncedVictimcnt = (n.trackers a).peredgeSyncedVictimcnt ∧
        (n'.trackers a).peredgeMonitoredVictimsetcnt =
          (n.trackers a).peredgeMonitoredVictimsetcnt) ∧
      n'.inFlight = n.inFlight ∧ n'.issued = n.issued ∧
      n'.refreshed = updatePair n.refreshed msg.src msg.dst
        (freshAfter (n.refreshed msg.src msg.dst) (n.monitor msg.dst msg.src) msg.syncset) := by
  simp only [Network.receive] at hstep
  obtain ⟨t, ht, hstep⟩ := bind_eq_some_iff.1 hstep
  rw [pure_eq_some_iff] at hstep
  subst hstep
  obtain ⟨hne, hgenuine⟩ := h.inFlight msg hmsg
  obtain ⟨m', out, hreceive, hidx, hcnt, hsetcnt, hmonitor, hmetadata⟩ :=
    updateForNeighborVictimSyncset_cases ht
  rw [(h.config msg.dst).2.2] at hreceive
  have hreceipt := receipt_of_receive hQ (h.issuedWell msg.src msg.dst)
    (h.sender msg.src msg.dst hne).limit (h.complete msg.dst)
    (h.receiver msg.src msg.dst hne) hgenuine hreceive
  refine ⟨m', out, hreceipt, ?_, ?_, ?_, rfl, rfl, rfl⟩
  · intro a b
    show (n.setTracker msg.dst t).monitor a b = _
    rw [monitor_setTracker, hmonitor, update_apply]
    by_cases ha : a = msg.dst
    · by_cases hb : b = msg.src
      · rw [if_pos ha, if_pos hb, if_pos ⟨ha, hb⟩]
      · rw [if_pos ha, if_neg hb, if_neg (fun hc => hb hc.2), ha]
        rfl
    · rw [if_neg ha, if_neg (fun hc => ha hc.1)]
  · intro a b
    show (n.setTracker msg.dst t).metadata a b = _
    have hafter : t.peredgeVictimMetadata = update (n.trackers msg.dst).peredgeVictimMetadata
        msg.src (metadataAfter (n.metadata msg.dst msg.src) out) := by
      cases out with
      | none =>
        rw [hmetadata]
        exact (update_eq_self _ _).symm
      | some final => exact hmetadata
    rw [metadata_setTracker, hafter, update_apply]
    by_cases ha : a = msg.dst
    · by_cases hb : b = msg.src
      · rw [if_pos ha, if_pos hb, if_pos ⟨ha, hb⟩]
      · rw [if_pos ha, if_neg hb, if_neg (fun hc => hb hc.2), ha]
        rfl
    · rw [if_neg ha, if_neg (fun hc => ha hc.1)]
  · intro a
    show ((n.setTracker msg.dst t).trackers a).edgeIdx = _ ∧ _
    rw [trackers_setTracker]
    split
    · next ha => rw [ha]; exact ⟨hidx, hcnt, hsetcnt⟩
    · exact ⟨rfl, rfl, rfl⟩

theorem Consistent.receive (hQ : Tracked V Q) (h : Consistent V Q cfg n) {msg : SyncMessage}
    (hmsg : msg ∈ n.inFlight) (hstep : n.receive msg view = some n') :
    Consistent V Q cfg n' := by
  obtain ⟨hne, hgenuine⟩ := h.inFlight msg hmsg
  obtain ⟨m', out, hreceipt, hmonitor, hmetadata, hconfig, hinFlight, hissued, hrefreshed⟩ :=
    receive_cases hQ h hmsg hstep
  have hother : ∀ a b, ¬ (a = msg.dst ∧ b = msg.src) →
      (n'.trackers a).victimsOf b = (n.trackers a).victimsOf b := by
    intro a b hab
    have heq := hmetadata a b
    rw [if_neg hab] at heq
    rw [victimsOf, victimsOf]
    exact congrArg (fun o => Option.elim o [] EdgelevelVictimMetadata.victimCacheinfos) heq
  constructor
  · intro a
    obtain ⟨h₁, h₂, h₃⟩ := hconfig a
    rw [h₁, h₂, h₃]
    exact h.config a
  · intro a f v hv
    by_cases hpair : a = msg.dst ∧ f = msg.src
    · obtain ⟨rfl, rfl⟩ := hpair
      have heq := hmetadata msg.dst msg.src
      rw [if_pos ⟨rfl, rfl⟩] at heq
      cases hreceipt with
      | applied cached final hnew hkind hR hle hsub hahead =>
        replace hv : v ∈ (n'.metadata msg.dst msg.src).elim []
          EdgelevelVictimMetadata.victimCacheinfos := hv
        rw [heq] at hv
        exact hR.1.victims v hv
      | _ =>
        replace hv : v ∈ (n'.metadata msg.dst msg.src).elim []
          EdgelevelVictimMetadata.victimCacheinfos := hv
        rw [heq] at hv
        exact h.complete msg.dst msg.src v hv
    · rw [hother a f hpair] at hv
      exact h.complete a f v hv
  · intro a
    rw [hother a a (fun hc => hne (hc.2 ▸ hc.1))]
    exact h.own a
  · rw [hissued]
    exact h.issuedWell
  · intro a b hab
    rw [hissued, hmonitor]
    split
    · next hpair =>
      -- the flag may have cleared the previous syncset; the numbering stays
      obtain ⟨rfl, rfl⟩ := hpair
      have hobey := senderOk_obeyEnforcement msg.syncset
        (h.sender msg.dst msg.src hab)
      obtain ⟨hcur, hprev⟩ := hreceipt.sender_eq
      exact ⟨hcur.trans hobey.curSeqnum, hobey.limit, fun p hp => hobey.prev p (hprev ▸ hp)⟩
    · exact h.sender a b hab
  · intro a b hab
    rw [hissued, hrefreshed, hmonitor, hmetadata, updatePair_apply]
    by_cases hpair : a = msg.src ∧ b = msg.dst
    · obtain ⟨rfl, rfl⟩ := hpair
      rw [if_pos ⟨rfl, rfl⟩, if_pos ⟨rfl, rfl⟩, if_pos ⟨rfl, rfl⟩]
      obtain ⟨htracked, hfirst, -⟩ := obeyEnforcement_eq (n.trackers msg.dst) msg.src msg.syncset
      exact receiverOk_receipt (receiverOk_obeyEnforcement (h.receiver msg.src msg.dst hab))
        hgenuine rfl ⟨htracked.symm, hfirst.symm⟩ hreceipt
    · have hflip : ¬ (b = msg.dst ∧ a = msg.src) := fun hc => hpair ⟨hc.2, hc.1⟩
      rw [if_neg hpair, if_neg hflip, if_neg hflip]
      exact h.receiver a b hab
  · rw [hinFlight, hissued]
    exact h.inFlight

/-- Messages may leave the network at any time. -/
theorem Consistent.forget (h : Consistent V Q cfg n) {messages : List SyncMessage}
    (hsub : messages.Sublist n.inFlight) :
    Consistent V Q cfg { n with inFlight := messages } :=
  ⟨h.config, h.complete, h.own, h.issuedWell, h.sender, h.receiver,
    fun msg hmsg => h.inFlight msg (hsub.subset hmsg)⟩

/-- Every step keeps the invariant. -/
theorem Consistent.step (hQ : Tracked V Q) (h : Consistent V Q cfg n) {a : SyncAction}
    (ha : Admissible V cfg n a) {out : Unit} (hstep : n.step a = some (n', out)) :
    Consistent V Q cfg n' := by
  cases a with
  | updateCacheMargin e bytes =>
    cases hstep
    exact h.updateCacheMargin e bytes
  | updateSyncedVictims e bytes victims view =>
    obtain ⟨t, ht, hstep⟩ := bind_eq_some_iff.1 hstep
    cases hstep
    exact h.updateSyncedVictims ha.2.1 ha.2.2.1 ht
  | updateBeaconedDirinfo e key isAdmit directoryInfo =>
    obtain ⟨t, ht, hstep⟩ := bind_eq_some_iff.1 hstep
    cases hstep
    exact h.setTracker (localChange_of_same (h.complete e e) (h.own e)
      (sameTracking_updateLocalBeaconedVictimDirinfo ht))
  | removeVictims e victimEdge victimKeyset =>
    obtain ⟨t, ht, hstep⟩ := bind_eq_some_iff.1 hstep
    cases hstep
    exact h.removeVictims ht
  | send src dst bytes =>
    obtain ⟨n₁, hsend, hstep⟩ := bind_eq_some_iff.1 hstep
    cases hstep
    exact h.send hQ ha.1 ha.2 hsend
  | deliver index view =>
    simp only [Network.step] at hstep
    split at hstep
    · cases hstep
      exact h
    · next msg hmsg =>
      obtain ⟨n₁, hreceive, hstep⟩ := bind_eq_some_iff.1 hstep
      cases hstep
      have hmem := mem_of_getElem? hmsg
      have hn₁ := h.receive hQ hmem hreceive
      obtain ⟨-, -, -, -, -, -, hinFlight, -, -⟩ := receive_cases hQ h hmem hreceive
      exact hn₁.forget (hinFlight ▸ eraseIdx_sublist _ _)
  | deliverCopy index view =>
    simp only [Network.step] at hstep
    split at hstep
    · cases hstep
      exact h
    · next msg hmsg =>
      obtain ⟨n₁, hreceive, hstep⟩ := bind_eq_some_iff.1 hstep
      cases hstep
      exact h.receive hQ (mem_of_getElem? hmsg) hreceive
  | lose index =>
    cases hstep
    exact h.forget (eraseIdx_sublist _ _)

/-! ### What a step does to the monitors -/

/-- A step leaves all monitors alone, or is a send, or is a receipt. -/
theorem step_cases {a : SyncAction} {out : Unit} (hstep : n.step a = some (n', out)) :
    ((∀ x y, n'.monitor x y = n.monitor x y) ∧
      (n'.inFlight = n.inFlight ∨
        ∃ index, a = .lose index ∧ n'.inFlight = n.inFlight.eraseIdx index)) ∨
    (∃ src dst bytes, a = .send src dst bytes ∧ n.send src dst bytes = some n') ∨
    (∃ index view msg n₁, (a = .deliver index view ∨ a = .deliverCopy index view) ∧
      n.inFlight[index]? = some msg ∧ n.receive msg view = some n₁ ∧
      (∀ x y, n'.monitor x y = n₁.monitor x y) ∧
      (n'.inFlight = n₁.inFlight ∨ n'.inFlight = n.inFlight.eraseIdx index)) := by
  have hset : ∀ {e : Nat} {t : VictimTracker},
      t.peredgeVictimsyncMonitor = (n.trackers e).peredgeVictimsyncMonitor →
      ∀ x y, (n.setTracker e t).monitor x y = n.monitor x y := by
    intro e t ht x y
    rw [monitor_setTracker, ht]
    split
    · next hx => rw [hx]; rfl
    · rfl
  cases a with
  | updateCacheMargin e bytes =>
    cases hstep
    exact .inl ⟨hset ((n.trackers e).sameTracking_updateLocalCacheMarginBytes bytes).monitor,
      .inl rfl⟩
  | updateSyncedVictims e bytes victims view =>
    obtain ⟨t, ht, hstep⟩ := bind_eq_some_iff.1 hstep
    cases hstep
    exact .inl ⟨hset (updateLocalSyncedVictims_cases ht).2.monitor, .inl rfl⟩
  | updateBeaconedDirinfo e key isAdmit directoryInfo =>
    obtain ⟨t, ht, hstep⟩ := bind_eq_some_iff.1 hstep
    cases hstep
    exact .inl ⟨hset (sameTracking_updateLocalBeaconedVictimDirinfo ht).monitor,
      .inl rfl⟩
  | removeVictims e victimEdge victimKeyset =>
    obtain ⟨t, ht, hstep⟩ := bind_eq_some_iff.1 hstep
    cases hstep
    obtain ⟨metadata, remaining, -, -, hsame⟩ := removeVictimsForGivenEdge_cases ht
    exact .inl ⟨hset hsame.monitor, .inl rfl⟩
  | send src dst bytes =>
    obtain ⟨n₁, hsend, hstep⟩ := bind_eq_some_iff.1 hstep
    cases hstep
    exact .inr (.inl ⟨src, dst, bytes, rfl, hsend⟩)
  | deliver index view =>
    simp only [Network.step] at hstep
    split at hstep
    · cases hstep
      exact .inl ⟨fun _ _ => rfl, .inl rfl⟩
    · next msg hmsg =>
      obtain ⟨n₁, hreceive, hstep⟩ := bind_eq_some_iff.1 hstep
      cases hstep
      exact .inr (.inr ⟨index, view, msg, n₁, .inl rfl, hmsg, hreceive, fun _ _ => rfl, .inr rfl⟩)
  | deliverCopy index view =>
    simp only [Network.step] at hstep
    split at hstep
    · cases hstep
      exact .inl ⟨fun _ _ => rfl, .inl rfl⟩
    · next msg hmsg =>
      obtain ⟨n₁, hreceive, hstep⟩ := bind_eq_some_iff.1 hstep
      cases hstep
      exact .inr (.inr ⟨index, view, msg, n', .inr rfl, hmsg, hreceive, fun _ _ => rfl, .inl rfl⟩)
  | lose index =>
    cases hstep
    exact .inl ⟨fun _ _ => rfl, .inr ⟨index, rfl, rfl⟩⟩

/-- The monitors after a send. -/
theorem monitor_send (h : Consistent V Q cfg n) (hne : src ≠ dst) (hbytes : bytes < uint64Limit)
    (hstep : n.send src dst bytes = some n') (a b : Nat) :
    ((n'.monitor a b).trackedSeqnum = (n.monitor a b).trackedSeqnum ∧
      (n'.monitor a b).cachedVictimSyncsets = (n.monitor a b).cachedVictimSyncsets ∧
      (n'.monitor a b).enforcementSeqnum = (n.monitor a b).enforcementSeqnum ∧
      (n'.monitor a b).waitForCompleteVictimSyncset =
        (n.monitor a b).waitForCompleteVictimSyncset) ∧
    (¬ (a = src ∧ b = dst) → n'.monitor a b = n.monitor a b) := by
  obtain ⟨numbered, final, -, -, -, -, -, -, rfl⟩ := send_cases h hne hbytes hstep
  have hmonitor : ∀ m : VictimsyncMonitor, (n.setTracker src
      ((n.trackers src).setMonitor dst m)).monitor a b =
        if a = src ∧ b = dst then m else n.monitor a b := by
    intro m
    rw [monitor_setTracker, monitor_setMonitor]
    by_cases ha : a = src
    · subst ha
      by_cases hb : b = dst
      · rw [if_pos rfl, if_pos hb, if_pos ⟨rfl, hb⟩]
      · rw [if_pos rfl, if_neg hb, if_neg (fun hc => hb hc.2)]
        rfl
    · rw [if_neg ha, if_neg (fun hc => ha hc.1)]
  constructor
  · show ((n.setTracker src _).monitor a b).trackedSeqnum = _ ∧
      ((n.setTracker src _).monitor a b).cachedVictimSyncsets = _ ∧
      ((n.setTracker src _).monitor a b).enforcementSeqnum = _ ∧
      ((n.setTracker src _).monitor a b).waitForCompleteVictimSyncset = _
    rw [hmonitor]
    split
    · next hpair =>
      obtain ⟨rfl, rfl⟩ := hpair
      exact ⟨rfl, rfl, rfl, rfl⟩
    · exact ⟨rfl, rfl, rfl, rfl⟩
  · intro hpair
    show (n.setTracker src _).monitor a b = _
    rw [hmonitor, if_neg hpair]

end Steps

end Network

end Covered.Victim
