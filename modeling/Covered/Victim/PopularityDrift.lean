import Covered.Victim.SyncsetRoundTrip

/-!
# Drift of synchronized popularities

A sender compresses each syncset against its exact predecessor, and the receiver recovers it against
what it has itself. A popularity that changed by no more than the tolerance is not sent, so the
receiver keeps the value it was last sent, and the changes of the rounds in between add up.

`HeldSince` says that a value is the popularity that a key had some rounds ago and that no round
since then changed it by more than the tolerance. `drift_bounded` is the result for every sequence
of syncsets: what the receiver has is such a value, so it is off by at most the tolerance for each
of these rounds. Two rounds are enough to exceed the tolerance itself (`drift_exceeds_tolerance`).
-/

set_option autoImplicit false

namespace Covered.Victim.VictimSyncset

open Common Lib Lib.Checked KeyedList List VictimCacheinfo

/-! ## The rounds -/

/-- What the receiver has after the syncsets of a sender, the latest first. The first one comes as
it is; every later one is compressed against its predecessor and, unless it is sent as it is,
recovered against what the receiver has. -/
def reconstruct : List VictimSyncset → Option VictimSyncset
  | [] => none
  | [first] => some first
  | current :: prev :: earlier => do
      let existing ← reconstruct (prev :: earlier)
      let c ← compress current prev
      if c.isComplete then return c else recover c existing

/-- Complete syncsets with consecutive sequence numbers, the latest first. -/
structure Produced (sent : List VictimSyncset) : Prop where
  wellFormed : ∀ s ∈ sent, s.WellFormed
  consecutive : sent.IsChain fun current prev => current.seqnum = prev.seqnum + 1
  limit : ∀ s ∈ sent, s.seqnum < uint64Limit

/-- The popularity of the key was `x` the given number of rounds ago, and no round since then
changed it by more than the tolerance. -/
inductive HeldSince (pop : VictimCacheinfo → Popularity) (key : Key) (x : Popularity) :
    Nat → List VictimSyncset → Prop
  | now {current : VictimSyncset} {earlier : List VictimSyncset} {v : VictimCacheinfo} :
      KeyedList.find VictimCacheinfo.key key current.localSyncedVictims = some v → pop v = x →
      HeldSince pop key x 0 (current :: earlier)
  | later {current prev : VictimSyncset} {earlier : List VictimSyncset} {v w : VictimCacheinfo}
      {n : Nat} :
      KeyedList.find VictimCacheinfo.key key current.localSyncedVictims = some v →
      KeyedList.find VictimCacheinfo.key key prev.localSyncedVictims = some w →
      isApproxEqual (pop v) (pop w) = true → HeldSince pop key x n (prev :: earlier) →
      HeldSince pop key x (n + 1) (current :: prev :: earlier)

/-! ## The error of a held value -/

theorem abs_sub_le_of_isApproxEqual {a b : ℚ} (h : isApproxEqual a b = true) :
    |a - b| ≤ doubleIota := by
  rw [isApproxEqual] at h
  split at h
  · next hle =>
    rw [abs_of_nonneg (sub_nonneg.2 hle)]
    exact of_decide_eq_true h
  · next hlt =>
    rw [abs_sub_comm, abs_of_nonneg (sub_nonneg.2 (le_of_not_ge hlt))]
    exact of_decide_eq_true h

variable {current : VictimSyncset}

/-- A held value is off by at most the tolerance for each round. -/
theorem HeldSince.error_le {pop : VictimCacheinfo → Popularity} {key : Key} {x : Popularity}
    {n : Nat} {earlier : List VictimSyncset} {v : VictimCacheinfo}
    (h : HeldSince pop key x n (current :: earlier))
    (hv : find VictimCacheinfo.key key current.localSyncedVictims = some v) :
    |x - pop v| ≤ n * doubleIota := by
  induction n generalizing current earlier v with
  | zero =>
    cases h with
    | now hv' hx =>
      rw [hv, Option.some.injEq] at hv'
      rw [hv', hx, sub_self, abs_zero, Nat.cast_zero, zero_mul]
  | succ n ih =>
    cases h with
    | later hv' hw happrox hheld =>
      rename_i prev rest v' w
      rw [hv, Option.some.injEq] at hv'
      subst hv'
      have hstep := abs_sub_le_of_isApproxEqual happrox
      have hbefore := ih hheld hw
      calc |x - pop v| ≤ |x - pop w| + |pop w - pop v| := abs_sub_le x (pop w) (pop v)
        _ ≤ n * doubleIota + doubleIota := by
          rw [abs_sub_comm (pop w)]
          exact add_le_add hbefore hstep
        _ = (n + 1 : Nat) * doubleIota := by
          rw [Nat.cast_add, Nat.cast_one, add_mul, one_mul]

/-! ## What the receiver has -/

/-- The victim of the receiver has a popularity that the sender's victim of the same key had in one
of the rounds. -/
def Held (pop : VictimCacheinfo → Popularity) (sent : List VictimSyncset)
    (v w : VictimCacheinfo) : Prop :=
  ∃ n < sent.length, HeldSince pop w.key (pop v) n sent

section Held

variable {pop : VictimCacheinfo → Popularity} {current prev : VictimSyncset}
  {earlier : List VictimSyncset}

variable {v p : VictimCacheinfo}

theorem held_self (hcur : current.WellFormed)
    (hv : v ∈ current.localSyncedVictims) : Held pop (current :: earlier) v v :=
  ⟨0, Nat.succ_pos _, .now ((find_eq_some_iff hcur.distinct).2 ⟨hv, rfl⟩) rfl⟩

/-- A field that is sent is held for no round, a field that is left out for one more. -/
theorem held_of_fieldOf (hcur : current.WellFormed) (hprev : prev.WellFormed)
    {existing r : VictimCacheinfo} (hv : v ∈ current.localSyncedVictims)
    (hp : p ∈ prev.localSyncedVictims) (hkey : v.key = p.key) {field : Option Popularity}
    (hfield : VictimCacheinfo.FieldOf field (pop v) (isApproxEqual (pop v) (pop p) = true))
    (hheld : Held pop (prev :: earlier) existing p) (hr : pop r = field.getD (pop existing)) :
    Held pop (current :: prev :: earlier) r v := by
  have hfind := (find_eq_some_iff hcur.distinct).2 ⟨hv, rfl⟩
  rcases hfield with rfl | ⟨rfl, happrox⟩
  · exact ⟨0, Nat.succ_pos _, .now hfind hr.symm⟩
  · obtain ⟨n, hn, hsince⟩ := hheld
    rw [Option.getD_none] at hr
    refine ⟨n + 1, Nat.succ_lt_succ hn, .later hfind ?_ happrox ?_⟩
    · exact hkey ▸ (find_eq_some_iff hprev.distinct).2 ⟨hp, rfl⟩
    · rw [hr, hkey]
      exact hsince

theorem follows_localCachedPopularity (hcur : current.WellFormed) (hprev : prev.WellFormed)
    (hv : v ∈ current.localSyncedVictims)
    (hp : p ∈ prev.localSyncedVictims) (hkey : v.key = p.key) :
    Follows (Held localCachedPopularity (prev :: earlier))
      (Held localCachedPopularity (current :: prev :: earlier)) v p := by
  intro d existing hd hheld
  constructor
  · intro hfully
    refine held_of_fieldOf hcur hprev hv hp hkey hd.localCachedPopularity hheld ?_
    rw [(hd.fully hfully).2.1, Option.getD_none]
  · intro r hrecover
    obtain ⟨-, -, -, -, -, -, hlocal, -⟩ := recover_eq_some hrecover
    exact held_of_fieldOf hcur hprev hv hp hkey hd.localCachedPopularity hheld hlocal

theorem follows_redirectedCachedPopularity (hcur : current.WellFormed) (hprev : prev.WellFormed)
    (hv : v ∈ current.localSyncedVictims)
    (hp : p ∈ prev.localSyncedVictims) (hkey : v.key = p.key) :
    Follows (Held redirectedCachedPopularity (prev :: earlier))
      (Held redirectedCachedPopularity (current :: prev :: earlier)) v p := by
  intro d existing hd hheld
  constructor
  · intro hfully
    refine held_of_fieldOf hcur hprev hv hp hkey hd.redirectedCachedPopularity hheld ?_
    rw [(hd.fully hfully).2.2.1, Option.getD_none]
  · intro r hrecover
    obtain ⟨-, -, -, -, -, -, -, hredirected, -⟩ := recover_eq_some hrecover
    exact held_of_fieldOf hcur hprev hv hp hkey hd.redirectedCachedPopularity hheld hredirected

end Held

/-- What the receiver has in common with the latest syncset. -/
structure ReconstructionOf (current : VictimSyncset) (earlier : List VictimSyncset)
    (r : VictimSyncset) : Prop where
  wellFormed : r.WellFormed
  seqnum : r.seqnum = current.seqnum
  margin_le : r.cacheMarginBytes ≤ current.cacheMarginBytes
  covers : Covers r.localSyncedVictims current.localSyncedVictims
  localHeld : RelatedTo (Held VictimCacheinfo.localCachedPopularity (current :: earlier))
    r.localSyncedVictims current.localSyncedVictims
  redirectedHeld : RelatedTo (Held VictimCacheinfo.redirectedCachedPopularity (current :: earlier))
    r.localSyncedVictims current.localSyncedVictims

theorem reconstructionOf_self (hcur : current.WellFormed)
    (earlier : List VictimSyncset) : ReconstructionOf current earlier current where
  wellFormed := hcur
  seqnum := rfl
  margin_le := Nat.le_refl _
  covers := covers_refl _
  localHeld := fun _ v hv => ⟨v, hv, held_self hcur (mem_of_find hv)⟩
  redirectedHeld := fun _ v hv => ⟨v, hv, held_self hcur (mem_of_find hv)⟩

/-- The reconstruction does not abort, and it has what the sender had in some round. -/
theorem reconstruct_spec (earlier : List VictimSyncset) (current : VictimSyncset)
    (h : Produced (current :: earlier)) :
    ∃ r, reconstruct (current :: earlier) = some r ∧ ReconstructionOf current earlier r := by
  induction earlier generalizing current with
  | nil =>
    exact ⟨current, rfl, reconstructionOf_self (h.wellFormed _ mem_cons_self) []⟩
  | cons prev earlier ih =>
    have hcur := h.wellFormed current mem_cons_self
    have hprev := h.wellFormed prev (mem_cons_of_mem _ mem_cons_self)
    have hseqnum := (isChain_cons_cons.1 h.consecutive).1
    have hlimit := h.limit current mem_cons_self
    obtain ⟨existing, hexisting, hof⟩ := ih prev
      ⟨fun s hs => h.wellFormed s (mem_cons_of_mem _ hs),
        (isChain_cons_cons.1 h.consecutive).2,
        fun s hs => h.limit s (mem_cons_of_mem _ hs)⟩
    obtain ⟨c, hcompress, hc⟩ := compress_spec hcur.toAllComplete hprev.toAllComplete hseqnum hlimit
    simp only [reconstruct, hexisting, hcompress, some_bind]
    cases hcomplete : c.isComplete with
    | true =>
      rw [hc.complete hcomplete]
      exact ⟨current, rfl, reconstructionOf_self hcur _⟩
    | false =>
      have hcompressed : c.isCompressed = true := by
        rw [isComplete_eq_not_isCompressed] at hcomplete
        simpa using hcomplete
      obtain ⟨r, hrecover, hrof, hr⟩ := roundTrip_spec hcur hprev hof.wellFormed hc hcompressed
        (by rw [hseqnum, hof.seqnum]) hlimit hof.margin_le
      refine ⟨r, hrecover, hr.wellFormed, hr.seqnum, hr.margin_le, hr.covers hof.covers, ?_, ?_⟩
      · exact related_roundTrip hcur hprev hof.wellFormed hc hrof (fun v hv => held_self hcur hv)
          (fun v hv p hp hkey => follows_localCachedPopularity hcur hprev hv hp hkey) hof.localHeld
      · exact related_roundTrip hcur hprev hof.wellFormed hc hrof (fun v hv => held_self hcur hv)
          (fun v hv p hp hkey => follows_redirectedCachedPopularity hcur hprev hv hp hkey)
          hof.redirectedHeld

/-- However many rounds are run, the receiver has the sender's victims, each with popularities that
the sender sent some rounds ago and has changed by at most the tolerance in each round since then;
so they are off by at most the tolerance for each of these rounds. -/
theorem drift_bounded (current : VictimSyncset) (earlier : List VictimSyncset)
    (h : Produced (current :: earlier)) :
    ∃ r, reconstruct (current :: earlier) = some r ∧
      (∀ w ∈ current.localSyncedVictims, ∃ v ∈ r.localSyncedVictims, v.key = w.key) ∧
      ∀ v ∈ r.localSyncedVictims, ∃ w ∈ current.localSyncedVictims, w.key = v.key ∧
        (∃ n ≤ earlier.length,
          HeldSince VictimCacheinfo.localCachedPopularity v.key v.localCachedPopularity n
            (current :: earlier) ∧
          |v.localCachedPopularity - w.localCachedPopularity| ≤ n * doubleIota) ∧
        ∃ n ≤ earlier.length,
          HeldSince VictimCacheinfo.redirectedCachedPopularity v.key v.redirectedCachedPopularity n
            (current :: earlier) ∧
          |v.redirectedCachedPopularity - w.redirectedCachedPopularity| ≤ n * doubleIota := by
  obtain ⟨r, hreconstruct, hr⟩ := reconstruct_spec earlier current h
  have hcur := h.wellFormed current List.mem_cons_self
  refine ⟨r, hreconstruct, fun w hw => ?_, fun v hv => ?_⟩
  · have hsome := (KeyedList.find_eq_some_iff hcur.distinct).2 ⟨hw, rfl⟩
    obtain ⟨v, hv⟩ := Option.isSome_iff_exists.1 (hr.covers w.key (by rw [hsome]; rfl))
    exact ⟨v, KeyedList.mem_of_find hv, KeyedList.key_of_find hv⟩
  · have hfind := (KeyedList.find_eq_some_iff hr.wellFormed.distinct).2 ⟨hv, rfl⟩
    obtain ⟨w, hw, n, hn, hlocal⟩ := hr.localHeld v.key v hfind
    obtain ⟨w', hw', m, hm, hredirected⟩ := hr.redirectedHeld v.key v hfind
    rw [hw, Option.some.injEq] at hw'
    subst hw'
    have hkey := KeyedList.key_of_find hw
    rw [hkey] at hlocal hredirected
    exact ⟨w, KeyedList.mem_of_find hw, hkey,
      ⟨n, Nat.le_of_lt_succ hn, hlocal, hlocal.error_le hw⟩,
      m, Nat.le_of_lt_succ hm, hredirected, hredirected.error_le hw⟩

/-! ## Concrete rounds -/

/-- The popularity of a victim rises by one sixteenth in each of two rounds. -/
def rising : List VictimSyncset :=
  [create 2 false 0 [oneByteVictim 1 (41 / 8) 1] [],
    create 1 false 0 [oneByteVictim 1 (81 / 16) 1] [], create 0 false 0 [oneByteVictim 1 5 1] []]

/-- The popularities of the victims with one key differ by more than the tolerance. -/
def exceeds (r current : VictimSyncset) : Bool :=
  r.localSyncedVictims.any fun v => current.localSyncedVictims.any fun w =>
    decide (v.key = w.key) &&
      decide (doubleIota < w.localCachedPopularity - v.localCachedPopularity)

theorem produced_rising : Produced rising := by
  refine ⟨?_, ?_, ?_⟩
  · decide +kernel
  · decide +kernel
  · decide +kernel

/-- Two omitted changes of one sixteenth make an error above the tolerance. -/
theorem drift_exceeds_tolerance : ¬ ∀ (current : VictimSyncset) (earlier : List VictimSyncset),
    Produced (current :: earlier) → ∀ r, reconstruct (current :: earlier) = some r →
      ∀ v ∈ r.localSyncedVictims, ∀ w ∈ current.localSyncedVictims, v.key = w.key →
        |v.localCachedPopularity - w.localCachedPopularity| ≤ doubleIota := by
  intro h
  have hexec : (reconstruct rising).any
      (fun r => exceeds r (create 2 false 0 [oneByteVictim 1 (41 / 8) 1] [])) = true := by
    decide +kernel
  obtain ⟨r, hr, hexceeds⟩ := (Option.any_eq_true ..).1 hexec
  obtain ⟨v, hv, hany⟩ := List.any_eq_true.1 hexceeds
  obtain ⟨w, hw, hboth⟩ := List.any_eq_true.1 hany
  rw [Bool.and_eq_true, decide_eq_true_eq, decide_eq_true_eq] at hboth
  have hle := h _ _ produced_rising r hr v hv w hw hboth.1
  rw [abs_sub_comm] at hle
  exact absurd (lt_of_lt_of_le hboth.2 (le_trans (le_abs_self _) hle)) (lt_irrefl _)

/-- The bound for the two rounds. -/
theorem drift_bounded_rising : ∃ r, reconstruct rising = some r ∧
    ∀ v ∈ r.localSyncedVictims, ∃ n : Nat, n ≤ 2 ∧
      |v.localCachedPopularity - 41 / 8| ≤ n * doubleIota := by
  obtain ⟨r, hr, -, hbound⟩ := drift_bounded _ _ produced_rising
  refine ⟨r, hr, fun v hv => ?_⟩
  obtain ⟨w, hw, -, ⟨n, hn, -, hle⟩, -⟩ := hbound v hv
  obtain rfl := List.mem_singleton.1 hw
  exact ⟨n, hn, hle⟩

end Covered.Victim.VictimSyncset
