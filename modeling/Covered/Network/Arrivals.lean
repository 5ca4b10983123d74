import Covered.Network.Delivery

/-!
# Fragments that come twice and numbers that wrap around

A source sends messages one after the other; the number in a fragment header is the 32-bit one, so
it is the same for two messages that are `2 ^ 32` messages apart. Fragments arrive in any order and
any number of times, or not at all.

The server compares the 32-bit numbers, and it asserts that it does not have the fragment that it is
about to track, also when it is not about to track it. `Regular` says which arrivals it handles as
they should be: the numbers compare as the messages were sent, and a fragment that comes twice is
one of an older message than the tracked one. `arrivals_exact` is what holds for such arrivals.
-/

set_option autoImplicit false

namespace Covered.Network

open Common Lib.Checked Lib.Execution List

/-- A source with the payloads of its messages in the order in which they are sent. -/
structure FragmentSource where
  sourceAddr : NetworkAddr
  payload : Nat → List UInt8
  source_sends : sourceAddr.Sends
  payload_ne : ∀ k, payload k ≠ []
  payload_lt : ∀ k, (payload k).length < 2 ^ 32

/-- A message with its 32-bit number. -/
def FragmentSource.message (source : FragmentSource) (k : Nat) : Message where
  sourceAddr := source.sourceAddr
  msgSeqnum := k % 2 ^ 32
  payload := source.payload k
  source_sends := source.source_sends
  seqnum_lt := Nat.mod_lt _ (Nat.two_pow_pos 32)
  payload_ne := source.payload_ne k
  payload_lt := source.payload_lt k

/-- The server, with the history: the fragments that have arrived, and the message of the fragment
that was tracked last. -/
structure ArrivalState where
  stats : MsgFragStats
  arrived : List (Nat × Nat)
  tracked : Nat

namespace ArrivalState

def initial : ArrivalState := ⟨fun _ => none, [], 0⟩

/-- A fragment of the message with the number `k` was tracked. -/
def wasTracked (stats : MsgFragStats) (sourceAddr : NetworkAddr) (k : Nat) (received : Received) :
    Bool :=
  received == .pending && (stats sourceAddr).any fun entry => entry.msgSeqnum == k % 2 ^ 32

/-- The arrival of the fragment with the given index of a message. -/
def step (source : FragmentSource) (s : ArrivalState) (arrival : Nat × Nat) :
    Option (ArrivalState × Received) := do
  require (arrival.2 < (source.message arrival.1).fragmentCnt)
  let pktPayload ← UdpNetwork.udpRecvfrom ((source.message arrival.1).packet arrival.2)
  let (stats, received) ← recvPacket s.stats pktPayload
  return (⟨stats, s.arrived ++ [arrival],
    if wasTracked stats source.sourceAddr arrival.1 received then arrival.1 else s.tracked⟩,
    received)

/-- The 32-bit numbers of two messages compare as the messages were sent. -/
def SameOrder (k l : Nat) : Prop :=
  (k % 2 ^ 32 < l % 2 ^ 32 ↔ k < l) ∧ (k % 2 ^ 32 = l % 2 ^ 32 ↔ k = l)

instance (k l : Nat) : Decidable (SameOrder k l) := inferInstanceAs (Decidable (_ ∧ _))

/-- The arrivals that the server handles as it should. A message of one fragment is not tracked. For
others, the numbers of the message and of the tracked one compare as the messages were sent, and a
fragment that has arrived before is one of an older message than the tracked one. -/
def Regular (source : FragmentSource) (s : ArrivalState) (arrival : Nat × Nat) : Prop :=
  1 < (source.message arrival.1).fragmentCnt →
    ((s.stats source.sourceAddr).isSome = true → SameOrder arrival.1 s.tracked) ∧
      (arrival ∈ s.arrived → (s.stats source.sourceAddr).isSome = true ∧ arrival.1 < s.tracked)

instance (source : FragmentSource) (s : ArrivalState) (arrival : Nat × Nat) :
    Decidable (Regular source s arrival) :=
  inferInstanceAs (Decidable (_ → _))

/-! ## What an arrival does -/

variable {source : FragmentSource} {s : ArrivalState} {k j : Nat}

/-- The entry has fragments of the tracked message, all of which have arrived. -/
def Inv (source : FragmentSource) (s : ArrivalState) : Prop :=
  ∀ entry, s.stats source.sourceAddr = some entry →
    Tracked entry (source.message s.tracked) ∧ ∀ j, entry.Tracks j → (s.tracked, j) ∈ s.arrived

theorem inv_initial (source : FragmentSource) : Inv source initial := by
  intro entry hentry
  cases hentry

/-- What a regular arrival does. -/
inductive Arrival (source : FragmentSource) (s : ArrivalState) (k j : Nat) :
    ArrivalState → Received → Prop
  /-- A message of one fragment is complete. -/
  | single : (source.message k).fragmentCnt = 1 →
      Arrival source s k j ⟨s.stats, s.arrived ++ [(k, j)], s.tracked⟩ (.message (source.payload k))
  /-- The tracked message is complete. -/
  | last (entry : MsgFragStatsEntry) : s.stats source.sourceAddr = some entry → s.tracked = k →
      (k, j) ∉ s.arrived →
      Arrival source s k j
        ⟨s.stats.removeEntry source.sourceAddr, s.arrived ++ [(k, j)], s.tracked⟩
        (.message (source.payload k))
  /-- The tracked message is newer. -/
  | older (entry : MsgFragStatsEntry) : s.stats source.sourceAddr = some entry → k < s.tracked →
      Arrival source s k j ⟨s.stats, s.arrived ++ [(k, j)], s.tracked⟩ .pending
  /-- The fragment is tracked, with those of its message that are tracked already. -/
  | tracked (entry : MsgFragStatsEntry) : Tracked entry (source.message k) → (k, j) ∉ s.arrived →
      (∀ i, entry.Tracks i ↔ i = j ∨ ∃ before, s.stats source.sourceAddr = some before ∧
        s.tracked = k ∧ before.Tracks i) →
      (∀ before, s.stats source.sourceAddr = some before → s.tracked ≤ k) →
      Arrival source s k j
        ⟨Function.update s.stats source.sourceAddr (some entry), s.arrived ++ [(k, j)], k⟩ .pending

variable {received : Received}

/-- The step for a packet whose effect at the server is known. -/
theorem step_eq (hj : j < (source.message k).fragmentCnt) {pkt : DynamicArray}
    (hpkt : UdpNetwork.udpRecvfrom ((source.message k).packet j) = some pkt) {stats : MsgFragStats}
    (hrecv : recvPacket s.stats pkt = some (stats, received)) :
    step source s (k, j) = some (⟨stats, s.arrived ++ [(k, j)],
      if wasTracked stats source.sourceAddr k received then k else s.tracked⟩, received) := by
  simp only [step, require_bind hj, hpkt, hrecv, some_bind, Option.pure_def]

/-- A regular arrival does not abort. -/
theorem step_regular (hinv : Inv source s) (hj : j < (source.message k).fragmentCnt)
    (hregular : Regular source s (k, j)) :
    ∃ s' received, step source s (k, j) = some (s', received) ∧
      Arrival source s k j s' received := by
  obtain ⟨pkt, hpkt, hbytes⟩ := UdpNetwork.udpRecvfrom_packet hj
  rcases Nat.lt_or_ge 1 (source.message k).fragmentCnt with hseveral | hsingle
  swap
  · have hone : (source.message k).fragmentCnt = 1 := by omega
    exact ⟨_, _, step_eq hj hpkt (recvPacket_single hj hbytes hone), .single hone⟩
  obtain ⟨horder, hagain⟩ := hregular hseveral
  -- the number of the entry compares as the tracked message does
  have hnumber : ∀ entry, s.stats source.sourceAddr = some entry →
      (entry.msgSeqnum = (source.message k).msgSeqnum ↔ s.tracked = k) ∧
        ((source.message k).msgSeqnum < entry.msgSeqnum ↔ k < s.tracked) := by
    intro entry hentry
    obtain ⟨hlt, heq⟩ := horder (by rw [hentry]; rfl)
    rw [(hinv entry hentry).1.msgSeqnum]
    exact ⟨eq_comm.trans (heq.trans eq_comm), hlt⟩
  have hfresh : (∀ entry, s.stats source.sourceAddr = some entry → s.tracked ≤ k) →
      (k, j) ∉ s.arrived := by
    intro hle harrived
    obtain ⟨hsome, hlt⟩ := hagain harrived
    obtain ⟨entry, hentry⟩ := Option.isSome_iff_exists.1 hsome
    exact absurd hlt (Nat.not_lt.2 (hle entry hentry))
  obtain ⟨stats, received, hrecv, heffect⟩ := recvPacket_effect s.stats hj hbytes
    (by
      intro entry hentry
      have htracked := (hinv entry hentry).1
      refine ⟨_, htracked, fun hseq => ?_⟩
      rw [((hnumber entry hentry).1).1 (htracked.msgSeqnum.trans hseq)])
    (by
      intro entry hentry hseq htracks
      have hk := (hnumber entry hentry).1.1 hseq
      have harrived := (hinv entry hentry).2 j htracks
      rw [hk] at harrived
      have hlt : k < s.tracked := (hagain harrived).2
      omega)
  refine ⟨_, _, step_eq hj hpkt hrecv, ?_⟩
  cases heffect with
  | single hone => exact absurd hseveral (by omega)
  | last entry _ hentry hseq hall =>
    have hk := (hnumber entry hentry).1.1 hseq
    refine .last entry hentry hk (hfresh fun entry' _ => hk.le)
  | older entry _ hentry hlt =>
    have hk := (hnumber entry hentry).2.1 hlt
    have hnot : wasTracked s.stats source.sourceAddr k .pending = false := by
      have hentry' : s.stats source.sourceAddr = some entry := hentry
      have hne : entry.msgSeqnum ≠ k % 2 ^ 32 := Nat.ne_of_gt hlt
      rw [wasTracked, hentry']
      simpa using hne
    rw [if_neg (by rw [hnot]; exact Bool.false_ne_true)]
    exact .older entry hentry hk
  | tracked entry htracked htracks hbefore =>
    have hle : ∀ before, s.stats source.sourceAddr = some before → s.tracked ≤ k := by
      intro before hentry
      have hnumber' := (hnumber before hentry).2
      have := hbefore before hentry
      omega
    have hwas : wasTracked (Function.update s.stats source.sourceAddr (some entry))
        source.sourceAddr k .pending = true := by
      have hseq : entry.msgSeqnum = k % 2 ^ 32 := htracked.msgSeqnum
      simp [wasTracked, hseq]
    have hthis : (source.message k).sourceAddr = source.sourceAddr := rfl
    rw [hthis, if_pos hwas]
    refine .tracked entry htracked (hfresh hle) (fun i => ?_) hle
    rw [htracks i]
    refine or_congr_right ⟨?_, ?_⟩
    · rintro ⟨before, hentry, hseq, htracks'⟩
      exact ⟨before, hentry, (hnumber before hentry).1.1 hseq, htracks'⟩
    · rintro ⟨before, hentry, hk, htracks'⟩
      exact ⟨before, hentry, (hnumber before hentry).1.2 hk, htracks'⟩

variable {s' : ArrivalState}

theorem Arrival.inv (hinv : Inv source s) (h : Arrival source s k j s' received) :
    Inv source s' := by
  intro entry' hentry'
  cases h with
  | single _ =>
    obtain ⟨htracked, harrived⟩ := hinv entry' hentry'
    exact ⟨htracked, fun i hi => mem_append_left _ (harrived i hi)⟩
  | last entry _ _ _ =>
    simp [MsgFragStats.removeEntry] at hentry'
  | older entry _ _ =>
    obtain ⟨htracked, harrived⟩ := hinv entry' hentry'
    exact ⟨htracked, fun i hi => mem_append_left _ (harrived i hi)⟩
  | tracked entry htracked _ htracks _ =>
    dsimp only at hentry' ⊢
    rw [Function.update_self, Option.some.injEq] at hentry'
    subst hentry'
    refine ⟨htracked, fun i hi => ?_⟩
    rcases (htracks i).1 hi with rfl | ⟨before, hbefore, rfl, hi'⟩
    · exact mem_append_right _ (mem_singleton_self _)
    · exact mem_append_left _ ((hinv before hbefore).2 i hi')

/-- A step for a regular arrival does what a regular arrival does. -/
theorem arrival_of_step (hinv : Inv source s) (hregular : Regular source s (k, j))
    (hstep : step source s (k, j) = some (s', received)) : Arrival source s k j s' received := by
  have hj : j < (source.message k).fragmentCnt := by
    simp only [step, bind_eq_some_iff, require_eq_some_iff] at hstep
    obtain ⟨-, hj, -⟩ := hstep
    exact hj
  obtain ⟨s'', received', hstep', harrival⟩ := step_regular hinv hj hregular
  rw [hstep, Option.some.injEq, Prod.mk.injEq] at hstep'
  obtain ⟨rfl, rfl⟩ := hstep'
  exact harrival

/-! ## Runs -/

/-- The arrival is none of a fragment of a message of several fragments that was sent later. -/
def NotLater (source : FragmentSource) (k : Nat) (arrival : Nat × Nat) : Prop :=
  arrival.1 ≤ k ∨ (source.message arrival.1).fragmentCnt = 1

/-- The message was reported, or no later message is tracked and all its fragments that have arrived
are. -/
def Collects (source : FragmentSource) (k : Nat) (tr : List ((Nat × Nat) × Received))
    (t : ArrivalState) : Prop :=
  (∃ j, ((k, j), .message (source.payload k)) ∈ tr) ∨
    (∀ entry, t.stats source.sourceAddr = some entry → t.tracked ≤ k) ∧
      ∀ j, (k, j) ∈ tr.map Prod.fst → ∃ entry, t.stats source.sourceAddr = some entry ∧
        t.tracked = k ∧ entry.Tracks j

variable {tr : List ((Nat × Nat) × Received)} {entry : MsgFragStatsEntry}

/-- An arrival of another message that leaves the tracked fragments as they are. -/
theorem Collects.of_same {l : Nat} (h : Collects source l tr s)
    (hne : k ≠ l) (hstats : s'.stats = s.stats) (htracked : s'.tracked = s.tracked) :
    Collects source l (((k, j), received) :: tr) s' := by
  rcases h with ⟨i, hi⟩ | ⟨hle, htracks⟩
  · exact .inl ⟨i, mem_cons_of_mem _ hi⟩
  refine .inr ⟨?_, fun i hi => ?_⟩
  · rw [hstats, htracked]
    exact hle
  · rw [hstats, htracked]
    apply htracks
    rw [map_cons, mem_cons] at hi
    exact hi.resolve_left fun heq => hne (congrArg Prod.fst heq).symm

theorem Collects.step {l : Nat} (hseveral : 1 < (source.message l).fragmentCnt)
    {s' : ArrivalState} {received : Received}
    (h : Collects source l tr s) (hnot : NotLater source l (k, j))
    (harrival : Arrival source s k j s' received) :
    Collects source l (((k, j), received) :: tr) s' := by
  have hne : (source.message k).fragmentCnt = 1 → k ≠ l := by
    rintro hone rfl
    omega
  have hle : 1 < (source.message k).fragmentCnt → k ≤ l := by
    intro hmany
    rcases hnot with hle | hone
    · exact hle
    · have hone' : (source.message k).fragmentCnt = 1 := hone
      omega
  cases harrival with
  | single hone => exact h.of_same (hne hone) rfl rfl
  | last entry hentry hk hnew =>
    rcases h with ⟨i, hi⟩ | ⟨hbound, htracks⟩
    · exact .inl ⟨i, mem_cons_of_mem _ hi⟩
    rcases Nat.lt_or_ge k l with hlt | hge
    · -- the tracked message is another one, so no fragment of this one has arrived
      refine .inr ⟨?_, fun i hi => ?_⟩
      · intro entry' hentry'
        simp [MsgFragStats.removeEntry] at hentry'
      · rw [map_cons, mem_cons] at hi
        rcases hi with heq | hi
        · exact absurd (congrArg Prod.fst heq) (Nat.ne_of_gt hlt)
        · obtain ⟨-, -, htracked, -⟩ := htracks i hi
          omega
    · have hkl : k = l := by
        have := hbound entry hentry
        omega
      subst hkl
      exact .inl ⟨j, mem_cons_self⟩
  | older entry hentry hlt =>
    have hkl : k ≠ l ∨ ∃ i, ((l, i), Received.message (source.payload l)) ∈ tr := by
      rcases h with hdone | ⟨hbound, -⟩
      · exact .inr hdone
      · have := hbound entry hentry
        exact .inl (by omega)
    rcases hkl with hkl | ⟨i, hi⟩
    · exact h.of_same hkl rfl rfl
    · exact .inl ⟨i, mem_cons_of_mem _ hi⟩
  | tracked entry htracked _ hentry hbefore =>
    rcases h with ⟨i, hi⟩ | ⟨hbound, htracks⟩
    · exact .inl ⟨i, mem_cons_of_mem _ hi⟩
    refine .inr ⟨fun _ _ => hle htracked.several, fun i hi => ?_⟩
    rw [map_cons, mem_cons] at hi
    have hself : Function.update s.stats source.sourceAddr (some entry) source.sourceAddr =
        some entry := Function.update_self ..
    refine ⟨entry, hself, ?_⟩
    rcases hi with heq | hi
    · obtain ⟨rfl, rfl⟩ := Prod.mk.inj heq
      exact ⟨rfl, (hentry i).2 (.inl rfl)⟩
    · -- the tracked message is this one, and it is not later than that of the arrival
      obtain ⟨before, hsome, hl, htracks'⟩ := htracks i hi
      have hkl : k = l := Nat.le_antisymm (hle htracked.several) (hl ▸ hbefore before hsome)
      exact ⟨hkl, (hentry i).2 (.inr ⟨before, hsome, hl.trans hkl.symm, htracks'⟩)⟩

section Runs

variable {t : ArrivalState} {tr tr' : List ((Nat × Nat) × Received)}

theorem inv_of_runs {C : ArrivalState → Nat × Nat → Prop}
    (hC : ∀ s arrival, C s arrival → Regular source s arrival) (hinv : Inv source s)
    (h : Runs (step source) C s tr t) : Inv source t := by
  refine h.invariant hinv ?_
  rintro u ⟨k, j⟩ u' received hu hcond hstep
  exact (arrival_of_step hu (hC u _ hcond) hstep).inv hu

/-- The message whose fragments arrive while no later one is tracked is reported. -/
theorem reported_of_runs (hinv : Inv source s) (hseveral : 1 < (source.message k).fragmentCnt)
    (hbound : ∀ entry, s.stats source.sourceAddr = some entry → s.tracked < k)
    (h : Runs (step source) (fun u a => Regular source u a ∧ NotLater source k a) s tr t)
    (hall : ∀ j < (source.message k).fragmentCnt, (k, j) ∈ tr.map Prod.fst) :
    ∃ j, ((k, j), .message (source.payload k)) ∈ tr := by
  have hstart : Inv source s ∧ Collects source k [] s := by
    refine ⟨hinv, .inr ⟨fun entry hentry => (hbound entry hentry).le, fun j hj => ?_⟩⟩
    exact absurd hj not_mem_nil
  obtain ⟨hinv', hcollects⟩ := h.trace_invariant
    (P := fun tr u => Inv source u ∧ Collects source k tr u) hstart (by
      rintro tr u ⟨l, i⟩ u' received ⟨hu, hcollects⟩ ⟨hregular, hnot⟩ hstep
      have harrival := arrival_of_step hu hregular hstep
      exact ⟨harrival.inv hu, hcollects.step hseveral hnot harrival⟩)
  rcases hcollects with hdone | ⟨-, htracks⟩
  · exact hdone
  -- the entry cannot have all fragments
  exfalso
  obtain ⟨entry, hentry, rfl, -⟩ := htracks 0 (hall 0 (by omega))
  have htracked := (hinv' entry hentry).1
  have hsub : Finset.range (source.message t.tracked).fragmentCnt ⊆
      (entry.fragidxFragpayloadMap.map Prod.fst).toFinset := by
    intro i hi
    obtain ⟨entry', hentry', -, hi'⟩ := htracks i (hall i (Finset.mem_range.1 hi))
    rw [hentry, Option.some.injEq] at hentry'
    subst hentry'
    exact mem_toFinset.2 hi'
  have hcard := (Finset.card_le_card hsub).trans (toFinset_card_le _)
  rw [Finset.card_range, length_map] at hcard
  exact absurd hcard (Nat.not_le.2 htracked.incomplete)

/-- After any regular arrivals, a regular arrival does not abort, and one of a fragment that has
arrived before leaves the entries as they are. If no message of several fragments that is as new as
the given one is tracked, and from then on all its fragments arrive and none of a later message of
several fragments, then it is reported. -/
theorem arrivals_exact (h : Runs (step source) (Regular source) initial tr s) :
    (∀ k j, j < (source.message k).fragmentCnt → Regular source s (k, j) →
      ∃ s' received, step source s (k, j) = some (s', received) ∧
        ((k, j) ∈ s.arrived → s'.stats = s.stats)) ∧
    ∀ k, 1 < (source.message k).fragmentCnt →
      (∀ entry, s.stats source.sourceAddr = some entry → s.tracked < k) →
      ∀ tr' t, Runs (step source) (fun u a => Regular source u a ∧ NotLater source k a) s tr' t →
        (∀ j < (source.message k).fragmentCnt, (k, j) ∈ tr'.map Prod.fst) →
        ∃ j, ((k, j), .message (source.payload k)) ∈ tr' := by
  have hinv := inv_of_runs (fun _ _ hregular => hregular) (inv_initial source) h
  refine ⟨fun k j hj hregular => ?_, fun k hseveral hbound tr' t hrun hall => ?_⟩
  · obtain ⟨s', received, hstep, harrival⟩ := step_regular hinv hj hregular
    refine ⟨s', received, hstep, fun hagain => ?_⟩
    cases harrival with
    | single _ => rfl
    | last _ _ _ hnew => exact absurd hagain hnew
    | older _ _ _ => rfl
    | tracked _ _ hnew _ _ => exact absurd hagain hnew
  · exact reported_of_runs hinv hseveral hbound hrun hall

end Runs

/-! ## Arrivals that are not regular -/

/-- A fragment that is tracked already aborts. -/
theorem step_tracked_aborts (hj : j < (source.message k).fragmentCnt)
    (hseveral : 1 < (source.message k).fragmentCnt)
    (hentry : s.stats source.sourceAddr = some entry)
    (hseq : entry.msgSeqnum = (source.message k).msgSeqnum) (htracks : entry.Tracks j) :
    step source s (k, j) = none := by
  obtain ⟨pkt, hpkt, hbytes⟩ := UdpNetwork.udpRecvfrom_packet hj
  have hfraghdr := Message.deserialize_packet hj hbytes
  have hnonempty : ¬ entry.fragidxFragpayloadMap.length = 0 := by
    intro hzero
    rw [MsgFragStatsEntry.Tracks, eq_nil_of_length_eq_zero hzero] at htracks
    exact not_mem_nil htracks
  have hlast : entry.isLastFrag ((source.message k).fraghdr j) = false := by
    simp [MsgFragStatsEntry.isLastFrag, Message.fraghdr, htracks]
  have htrack : entry.track ((source.message k).fraghdr j) pkt = none := by
    simp [MsgFragStatsEntry.track, Message.fraghdr, require, htracks]
  have hinsert : entry.insertFrag ((source.message k).fraghdr j) pkt = none := by
    have heq : ((source.message k).fraghdr j).msgSeqnum = entry.msgSeqnum := hseq.symm
    rw [MsgFragStatsEntry.insertFrag, if_neg hnonempty, heq, if_neg (Nat.lt_irrefl _),
      if_neg (Nat.lt_irrefl _), htrack]
    simp
  have hcnt : ¬ ((source.message k).fraghdr j).fragmentCnt = 1 := Nat.ne_of_gt hseveral
  have haddr : ((source.message k).fraghdr j).sourceAddr = source.sourceAddr := rfl
  have hstats : MsgFragStats.insertEntry s.stats source.sourceAddr pkt = none := by
    simp only [MsgFragStats.insertEntry, hfraghdr, Option.bind_eq_bind, Option.bind_some,
      if_neg hcnt, hentry, hlast, hinsert, Option.bind_none, Bool.false_eq_true, if_false]
  have hlength : ¬ pkt.bytes.length < udpFraghdrSize := by
    rw [hbytes, Message.length_packet]
    omega
  have hport : ¬ source.sourceAddr.port.toNat ≤ udpMinPort :=
    Nat.not_le.2 source.source_sends.port
  have hrecv : recvPacket s.stats pkt = none := by
    simp only [recvPacket, if_neg hlength, hfraghdr, Option.bind_eq_bind, Option.bind_some,
      haddr, if_neg hport, hstats, Option.bind_none]
  simp only [step, require_bind_of hj, hpkt, hrecv, Option.bind_eq_bind, Option.bind_some,
    Option.bind_none]

/-- A fragment whose number is less than the tracked one is ignored, in whatever order the messages
were sent. -/
theorem step_less_ignored (hj : j < (source.message k).fragmentCnt)
    (hseveral : 1 < (source.message k).fragmentCnt) {m : Message}
    (hentry : s.stats source.sourceAddr = some entry) (htracked : Tracked entry m)
    (hlt : (source.message k).msgSeqnum < entry.msgSeqnum) :
    step source s (k, j) = some (⟨s.stats, s.arrived ++ [(k, j)], s.tracked⟩, .pending) := by
  obtain ⟨pkt, hpkt, hbytes⟩ := UdpNetwork.udpRecvfrom_packet hj
  have hthis : ∀ entry', s.stats (source.message k).sourceAddr = some entry' → entry' = entry :=
    fun entry' hentry' => Option.some.inj (hentry'.symm.trans hentry)
  obtain ⟨stats, received, hrecv, heffect⟩ := recvPacket_effect s.stats hj hbytes
    (by
      intro entry' hentry'
      rw [hthis entry' hentry']
      refine ⟨m, htracked, fun hseq => absurd hlt ?_⟩
      rw [htracked.msgSeqnum, hseq]
      exact Nat.lt_irrefl _)
    (by
      intro entry' hentry' hseq
      rw [hthis entry' hentry'] at hseq
      exact absurd hseq (Nat.ne_of_gt hlt))
  have hstep := step_eq hj hpkt hrecv
  cases heffect with
  | single hone => exact absurd hseveral (by omega)
  | last entry' _ hentry' hseq _ =>
    rw [hthis entry' hentry'] at hseq
    exact absurd hseq (Nat.ne_of_gt hlt)
  | older entry' _ _ _ =>
    have hnot : wasTracked s.stats source.sourceAddr k .pending = false := by
      have hne : entry.msgSeqnum ≠ k % 2 ^ 32 := Nat.ne_of_gt hlt
      rw [wasTracked, hentry]
      simpa using hne
    rw [hstep, hnot]
    rfl
  | tracked entry' _ _ hbefore =>
    exact absurd hlt (Nat.not_lt.2 (hbefore entry hentry))

/-- A source all of whose messages have two fragments. -/
def largeSource : FragmentSource where
  sourceAddr := UdpNetwork.localAddr
  payload := fun _ => UdpNetwork.largePayload
  source_sends := UdpNetwork.sendable_largePayload.1
  payload_ne := fun _ => UdpNetwork.sendable_largePayload.2.2.1
  payload_lt := fun _ => UdpNetwork.sendable_largePayload.2.2.2

theorem fragmentCnt_largeSource (k : Nat) : (largeSource.message k).fragmentCnt = 2 := by
  show getFragmentCnt UdpNetwork.largePayload.length = 2
  rw [UdpNetwork.length_largePayload]
  decide

/-- The first fragment that arrives is tracked. -/
theorem step_first (k : Nat) :
    ∃ s entry, step largeSource initial (k, 0) = some (s, .pending) ∧
      s.stats largeSource.sourceAddr = some entry ∧ s.tracked = k ∧ s.arrived = [(k, 0)] ∧
      Tracked entry (largeSource.message k) ∧ entry.Tracks 0 := by
  have hj : 0 < (largeSource.message k).fragmentCnt := by rw [fragmentCnt_largeSource]; decide
  have hregular : Regular largeSource initial (k, 0) := by
    intro _
    exact ⟨fun h => absurd h Bool.false_ne_true, fun h => absurd h not_mem_nil⟩
  obtain ⟨s, received, hstep, harrival⟩ := step_regular (inv_initial _) hj hregular
  cases harrival with
  | single hone =>
    rw [fragmentCnt_largeSource] at hone
    cases hone
  | last _ hentry _ _ => cases hentry
  | older _ hentry _ => cases hentry
  | tracked entry htracked _ htracks _ =>
    refine ⟨_, entry, hstep, ?_, rfl, rfl, htracked, (htracks 0).2 (.inl rfl)⟩
    exact Function.update_self largeSource.sourceAddr (some entry) initial.stats

/-- The fragment of a message arrives twice and the server aborts. After the last number before
the wrap, both fragments of the next message arrive, and it is not reported. -/
theorem duplicate_aborts_wrap_ignored : (∃ s, step largeSource initial (0, 0) = some (s, .pending) ∧
      step largeSource s (0, 0) = none) ∧
    ∃ t, (largeSource.message (2 ^ 32)).fragmentCnt = 2 ∧
      Runs (step largeSource) anyAction initial [((2 ^ 32, 1), .pending),
        ((2 ^ 32, 0), .pending), ((2 ^ 32 - 1, 0), .pending)] t := by
  have hseveral : ∀ k, 1 < (largeSource.message k).fragmentCnt := by
    intro k
    rw [fragmentCnt_largeSource]
    decide
  refine ⟨?_, ?_⟩
  · obtain ⟨s, entry, hstep, hentry, -, -, htracked, htracks⟩ := step_first 0
    refine ⟨s, hstep, ?_⟩
    apply step_tracked_aborts _ (hseveral 0) hentry htracked.msgSeqnum htracks
    exact Nat.lt_of_lt_of_le Nat.one_pos (hseveral 0).le
  · obtain ⟨s, entry, hstep, hentry, -, -, htracked, -⟩ := step_first (2 ^ 32 - 1)
    have hlt : (largeSource.message (2 ^ 32)).msgSeqnum < entry.msgSeqnum := by
      rw [htracked.msgSeqnum]
      show 2 ^ 32 % 2 ^ 32 < (2 ^ 32 - 1) % 2 ^ 32
      decide
    have hj : ∀ j < 2, j < (largeSource.message (2 ^ 32)).fragmentCnt := by
      intro j hj
      rw [fragmentCnt_largeSource]
      exact hj
    have hfirst := step_less_ignored (hj 0 (by decide)) (hseveral _) hentry htracked hlt
    have hsecond := step_less_ignored
      (s := ⟨s.stats, s.arrived ++ [(2 ^ 32, 0)], s.tracked⟩) (hj 1 (by decide)) (hseveral _)
      hentry htracked hlt
    exact ⟨_, fragmentCnt_largeSource _,
      .cons (.cons (.cons .nil trivial hstep) trivial hfirst) trivial hsecond⟩

/-- One fragment of the first message arrives and both of the second, which is reported. -/
theorem arrivals_exact_second :
    ∃ s tr t, Runs (step largeSource) (Regular largeSource) initial [((0, 0), .pending)] s ∧
      Runs (step largeSource) (Regular largeSource) s tr t ∧
      ∃ j, ((1, j), .message UdpNetwork.largePayload) ∈ tr := by
  obtain ⟨s, entry, hstep, hentry, hk, harrived, -, -⟩ := step_first 0
  have hcnt := fragmentCnt_largeSource
  have hregular : Regular largeSource initial (0, 0) := by
    intro _
    exact ⟨fun h => absurd h Bool.false_ne_true, fun h => absurd h List.not_mem_nil⟩
  have hrun : Runs (step largeSource) (Regular largeSource) initial [((0, 0), .pending)] s :=
    .cons .nil hregular hstep
  obtain ⟨hnext, hreported⟩ := arrivals_exact hrun
  have hinv := inv_of_runs (fun _ _ hr => hr) (inv_initial _) hrun
  -- the first fragment of the second message
  have hregular1 : Regular largeSource s (1, 0) := by
    intro _
    refine ⟨fun _ => ?_, fun h => ?_⟩
    · rw [hk]
      decide
    · rw [harrived] at h
      exact absurd h (by decide)
  obtain ⟨s1, received1, hstep1, -⟩ := hnext 1 0 (by rw [hcnt]; decide) hregular1
  have harrival1 := arrival_of_step hinv hregular1 hstep1
  have hinv1 := harrival1.inv hinv
  have hstate1 : s1.tracked = 1 ∧ s1.arrived = [(0, 0), (1, 0)] := by
    cases harrival1 with
    | single hone => rw [hcnt] at hone; cases hone
    | last _ _ htracked _ => rw [hk] at htracked; cases htracked
    | older _ _ hlt => rw [hk] at hlt; exact absurd hlt (Nat.not_lt_zero 1)
    | tracked _ _ _ _ _ => exact ⟨rfl, by rw [harrived]; rfl⟩
  -- the second fragment of the second message
  have hregular2 : Regular largeSource s1 (1, 1) := by
    intro _
    refine ⟨fun _ => ?_, fun h => ?_⟩
    · rw [hstate1.1]
      decide
    · rw [hstate1.2] at h
      exact absurd h (by decide)
  obtain ⟨s2, received2, hstep2, -⟩ := step_regular hinv1 (by rw [hcnt]; decide) hregular2
  have hnotLater : ∀ j, NotLater largeSource 1 (1, j) := fun j => .inl (Nat.le_refl 1)
  refine ⟨s, [((1, 1), received2), ((1, 0), received1)], s2, hrun,
    .cons (.cons .nil hregular1 hstep1) hregular2 hstep2, ?_⟩
  refine hreported 1 (by rw [hcnt]; decide) (fun _ _ => by rw [hk]; decide) _ s2
    (.cons (.cons .nil ⟨hregular1, hnotLater 0⟩ hstep1) ⟨hregular2, hnotLater 1⟩ hstep2) ?_
  intro j hj
  rw [hcnt] at hj
  rcases Nat.lt_succ_iff_lt_or_eq.1 hj with hzero | rfl
  · rw [Nat.lt_one_iff.1 hzero]
    exact List.mem_cons_of_mem _ List.mem_cons_self
  · exact List.mem_cons_self

end ArrivalState

end Covered.Network
