import Covered.Cache.WtinylfuCachePolicy
import Covered.Lib.SharedCounters

/-!
# The counting Bloom filter against exact counters

An update increments all counters of a key, and only the least of them is compared with the largest
32-bit number before. Another counter of the key may be at that number already, as it is shared with
other keys or is hit by several hash functions of the key itself. It wraps around to zero, and the
filter underestimates all keys of the counter.

`CountedCBF` runs the filter beside a counter for each key, of unbounded numbers or one that stops
at the largest 32-bit number. `estimate_not_below` is the theorem: the estimate is not below the
counters as long as no increment wraps a counter around. `estimate_below` is a run of one key whose
estimate is zero after `2 ^ 31` updates.
-/

set_option autoImplicit false

namespace Covered.Cache.Wtinylfu

open Common Lib Lib.Checked Lib.Execution Function CBF
open Lib.SharedCounters (Covers reading)

/-- The largest value of a counter. -/
def CBF.uintMax : Nat := 2 ^ 32 - 1

/-- The filter, an exact counter of each key, and one that stops at the largest value. -/
structure CountedCBF where
  cbf : CBF
  exact : Key → Nat := fun _ => 0
  capped : Key → Nat := fun _ => 0

inductive CBFAction where
  | estimate (key : Key)
  | update (key : Key)
  | decay

namespace CountedCBF

def step (hash : KeyHash) (s : CountedCBF) : CBFAction → Option (CountedCBF × Option Nat)
  | .estimate key => (s.cbf.estimate hash key).map fun count => (s, some count)
  | .update key => (s.cbf.update hash key).map fun cbf =>
      ({ cbf := cbf
         exact := Function.update s.exact key (s.exact key + 1)
         capped := Function.update s.capped key (min (s.capped key + 1) CBF.uintMax) }, none)
  | .decay =>
      some ({ cbf := s.cbf.decay
              exact := fun key => s.exact key / 2
              capped := fun key => s.capped key / 2 }, none)

/-- An update changes no counter, or wraps none around. -/
def NoWrap (hash : KeyHash) (s : CountedCBF) : CBFAction → Prop
  | .update key =>
      s.cbf.minCount (s.cbf.hashValues hash key) = CBF.uintMax ∨
      ∀ i ∈ s.cbf.hashValues hash key,
        s.cbf.counters i + (s.cbf.hashValues hash key).count i ≤ CBF.uintMax
  | _ => True

/-- No exact counter has passed the largest value when all are halved. -/
def Unsaturated (s : CountedCBF) : CBFAction → Prop
  | .decay => ∀ key, s.exact key ≤ CBF.uintMax
  | _ => True

end CountedCBF

/-! ## What an access does -/

namespace CBF

variable {hash : KeyHash} {c c' : CBF} {key : Key} {count : Nat}

theorem minCount_eq_reading (c : CBF) (cells : List Nat) :
    c.minCount cells = reading uintMax cells c.counters := rfl

/-- The counters after one increment for each entry of the list. -/
theorem counters_incremented (cells : List Nat) {counters : Nat → Nat}
    (hlimit : ∀ i, counters i ≤ uintMax) (i : Nat) :
    cells.foldl (fun counters i => Function.update counters i ((counters i + 1) % 2 ^ 32))
      counters i = (counters i + cells.count i) % 2 ^ 32 := by
  induction cells generalizing counters with
  | nil =>
    have hi := hlimit i
    rw [uintMax] at hi
    rw [List.foldl_nil, List.count_nil, Nat.add_zero, Nat.mod_eq_of_lt (by omega)]
  | cons j rest ih =>
    have hlimit' : ∀ x, Function.update counters j ((counters j + 1) % 2 ^ 32) x ≤ uintMax := by
      intro x
      rw [update_apply]
      split
      · have := Nat.mod_lt (counters j + 1) (Nat.two_pow_pos 32)
        rw [uintMax]
        omega
      · exact hlimit x
    rw [List.foldl_cons, ih hlimit', List.count_cons]
    by_cases hij : j = i
    · subst hij
      rw [update_self, beq_self_eq_true, if_pos rfl, Nat.mod_add_mod]
      congr 1
      omega
    · rw [update_of_ne (Ne.symm hij), if_neg (by simpa using hij), Nat.add_zero]

/-- The hashes of a key are counters. -/
theorem hashValues_lt (h : c.counterNum ≠ 0) (hash : KeyHash) (key : Key) :
    ∀ i ∈ c.hashValues hash key, i < c.counterNum := by
  intro i hi
  obtain ⟨seed, -, rfl⟩ := List.mem_map.1 hi
  exact Nat.mod_lt _ (Nat.pos_of_ne_zero h)

theorem estimate_eq (h : c.counterNum ≠ 0) (hash : KeyHash) (key : Key) :
    c.estimate hash key = some (c.minCount (c.hashValues hash key)) := by
  simp only [estimate, access, require_bind h, require_bind (hashValues_lt h hash key)]
  rfl

/-- An update that finds the least counter at the largest value leaves the filter as it is. -/
theorem update_of_saturated (h : c.update hash key = some c')
    (hsaturated : c.minCount (c.hashValues hash key) = uintMax) : c' = c := by
  simp only [update, access, Option.map_eq_some_iff, require_bind_iff, hsaturated, uintMax] at h
  obtain ⟨r, ⟨-, -, hr⟩, rfl⟩ := h
  rw [if_neg (by omega)] at hr
  cases hr
  rfl

/-- Another update increments every counter of the key as often as the hash functions hit it. -/
theorem update_of_unsaturated (h : c.update hash key = some c')
    (hlimit : ∀ i, c.counters i ≤ uintMax)
    (hunsaturated : c.minCount (c.hashValues hash key) ≠ uintMax) :
    c'.hashes = c.hashes ∧ c'.counterNum = c.counterNum ∧
      ∀ i, c'.counters i = (c.counters i + (c.hashValues hash key).count i) % 2 ^ 32 := by
  have hlt : c.minCount (c.hashValues hash key) < 2 ^ 32 - 1 :=
    lt_of_le_of_ne (SharedCounters.reading_le_top uintMax _ _) hunsaturated
  simp only [update, access, Option.map_eq_some_iff, require_bind_iff] at h
  obtain ⟨r, ⟨-, -, hr⟩, rfl⟩ := h
  rw [if_pos ⟨trivial, hlt⟩] at hr
  cases hr
  exact ⟨rfl, rfl, counters_incremented _ hlimit⟩

/-- The counters hold 32-bit numbers and cover the given numbers of the keys. -/
structure Above (hash : KeyHash) (c : CBF) (number : Key → Nat) : Prop where
  counterNum : c.counterNum ≠ 0
  limit : ∀ i, c.counters i ≤ uintMax
  covers : Covers (c.hashValues hash) c.counters number

namespace Above

variable {number : Key → Nat}

theorem estimate (h : Above hash c number) (key : Key) :
    ∃ count, c.estimate hash key = some count ∧ min (number key) uintMax ≤ count := by
  refine ⟨_, estimate_eq h.counterNum hash key, ?_⟩
  rw [minCount_eq_reading]
  exact h.covers.le_reading uintMax key

/-- An increment that wraps no counter around. -/
theorem update (h : Above hash c number) (hupdate : c.update hash key = some c')
    (hwrap : ∀ i ∈ c.hashValues hash key,
      c.counters i + (c.hashValues hash key).count i ≤ uintMax)
    (hunsaturated : c.minCount (c.hashValues hash key) ≠ uintMax) :
    Above hash c' (Function.update number key (number key + 1)) := by
  obtain ⟨hhashes, hnum, hcounters⟩ := update_of_unsaturated hupdate h.limit hunsaturated
  have hvalues : c'.hashValues hash = c.hashValues hash := by
    funext key'
    rw [hashValues, hashValues, hhashes, hnum]
  -- a counter that no hash function hits keeps its value
  have hexact : ∀ i, c'.counters i = c.counters i + (c.hashValues hash key).count i := by
    intro i
    rw [hcounters]
    apply Nat.mod_eq_of_lt
    by_cases hi : i ∈ c.hashValues hash key
    · have := hwrap i hi
      rw [uintMax] at this
      omega
    · have := h.limit i
      rw [uintMax] at this
      rw [List.count_eq_zero_of_not_mem hi]
      omega
  constructor
  · rw [hnum]
    exact h.counterNum
  · intro i
    rw [hexact]
    by_cases hi : i ∈ c.hashValues hash key
    · exact hwrap i hi
    · rw [List.count_eq_zero_of_not_mem hi]
      exact h.limit i
  · rw [hvalues]
    refine h.covers.update (fun i => ?_) fun i hi => ?_
    · rw [hexact]
      exact Nat.le_add_right _ _
    · have hhit : 0 < (c.hashValues hash key).count i := List.count_pos_iff.2 hi
      have hold := h.covers key i hi
      rw [hexact]
      omega

/-- Numbers of a key at the largest value may stand for larger ones. -/
theorem update_of_saturated (h : Above hash c number) (hupdate : c.update hash key = some c')
    (hsaturated : c.minCount (c.hashValues hash key) = uintMax) :
    Above hash c' (Function.update number key uintMax) := by
  rw [CBF.update_of_saturated hupdate hsaturated]
  refine ⟨h.counterNum, h.limit, h.covers.update (fun _ => le_rfl) ?_⟩
  rw [minCount_eq_reading] at hsaturated
  exact (SharedCounters.le_reading_iff.1 hsaturated.ge).2

theorem decay (h : Above hash c number) : Above hash c.decay fun key => number key / 2 where
  counterNum := h.counterNum
  limit i := (Nat.div_le_self _ 2).trans (h.limit i)
  covers := h.covers.map fun _ _ hle => Nat.div_le_div_right hle

theorem mono (h : Above hash c number) {number' : Key → Nat}
    (hle : ∀ key, number' key ≤ number key) : Above hash c number' :=
  ⟨h.counterNum, h.limit, h.covers.mono hle⟩

end Above

end CBF

/-! ## Runs -/

namespace CountedCBF

variable {hash : KeyHash} {s s' : CountedCBF} {a : CBFAction} {out : Option Nat}

/-- The counter that stops is covered in every step that wraps no counter around. -/
theorem above_capped_step (h : s.cbf.Above hash s.capped) (hcap : ∀ key, s.capped key ≤ uintMax)
    (hwrap : s.NoWrap hash a) (hstep : s.step hash a = some (s', out)) :
    s'.cbf.Above hash s'.capped ∧ ∀ key, s'.capped key ≤ uintMax := by
  cases a with
  | estimate key =>
    obtain ⟨count, -, heq⟩ := Option.map_eq_some_iff.1 hstep
    cases heq
    exact ⟨h, hcap⟩
  | update key =>
    obtain ⟨cbf, hupdate, heq⟩ := Option.map_eq_some_iff.1 hstep
    cases heq
    refine ⟨?_, fun key' => ?_⟩
    · by_cases hsaturated : s.cbf.minCount (s.cbf.hashValues hash key) = uintMax
      · refine (h.update_of_saturated hupdate hsaturated).mono fun key' => ?_
        dsimp only
        rw [update_apply, update_apply]
        split
        · exact min_le_right _ _
        · exact le_rfl
      · refine (h.update hupdate (hwrap.resolve_left hsaturated) hsaturated).mono fun key' => ?_
        dsimp only
        rw [update_apply, update_apply]
        split
        · exact min_le_left _ _
        · exact le_rfl
    · dsimp only
      rw [update_apply]
      split
      · exact min_le_right _ _
      · exact hcap key'
  | decay =>
    cases hstep
    exact ⟨h.decay, fun key => (Nat.div_le_self _ 2).trans (hcap key)⟩

/-- The exact counter, up to the largest value, is covered if it is below that at a decay. -/
theorem above_exact_step (h : s.cbf.Above hash fun key => min (s.exact key) uintMax)
    (hwrap : s.NoWrap hash a) (hunsaturated : s.Unsaturated a)
    (hstep : s.step hash a = some (s', out)) :
    s'.cbf.Above hash fun key => min (s'.exact key) uintMax := by
  cases a with
  | estimate key =>
    obtain ⟨count, -, heq⟩ := Option.map_eq_some_iff.1 hstep
    cases heq
    exact h
  | update key =>
    obtain ⟨cbf, hupdate, heq⟩ := Option.map_eq_some_iff.1 hstep
    cases heq
    by_cases hsaturated : s.cbf.minCount (s.cbf.hashValues hash key) = uintMax
    · refine (h.update_of_saturated hupdate hsaturated).mono fun key' => ?_
      dsimp only
      rw [update_apply, update_apply]
      split
      · exact min_le_right _ _
      · exact le_rfl
    · refine (h.update hupdate (hwrap.resolve_left hsaturated) hsaturated).mono fun key' => ?_
      dsimp only
      rw [update_apply, update_apply]
      split <;> omega
  | decay =>
    cases hstep
    refine h.decay.mono fun key => ?_
    have hkey := hunsaturated key
    dsimp only
    omega

/-- The estimate of a key is not below the counter that stops at the largest value, in a run that
wraps no counter around, nor below the exact one up to that value, if no key has passed it at a
decay. -/
theorem estimate_not_below {c : CBF} (hnum : c.counterNum ≠ 0) (hinit : c.counters = fun _ => 0)
    {tr : List (CBFAction × Option Nat)} :
    (Runs (step hash) (NoWrap hash) ⟨c, fun _ => 0, fun _ => 0⟩ tr s → ∀ key,
      ∃ count, s.cbf.estimate hash key = some count ∧ s.capped key ≤ count) ∧
    (Runs (step hash) (fun s a => s.NoWrap hash a ∧ s.Unsaturated a)
        ⟨c, fun _ => 0, fun _ => 0⟩ tr s → ∀ key,
      ∃ count, s.cbf.estimate hash key = some count ∧ min (s.exact key) CBF.uintMax ≤ count) := by
  have habove : c.Above hash fun _ => 0 := by
    refine ⟨hnum, fun i => ?_, fun _ _ _ => Nat.zero_le _⟩
    rw [hinit]
    exact Nat.zero_le _
  constructor
  · intro hrun key
    obtain ⟨h, hcap⟩ := hrun.invariant
      (P := fun s => s.cbf.Above hash s.capped ∧ ∀ key, s.capped key ≤ CBF.uintMax)
      ⟨habove, fun _ => Nat.zero_le _⟩
      fun hs hwrap hstep => above_capped_step hs.1 hs.2 hwrap hstep
    obtain ⟨count, hcount, hle⟩ := h.estimate key
    exact ⟨count, hcount, by rwa [min_eq_left (hcap key)] at hle⟩
  · intro hrun key
    have h := hrun.invariant
      (P := fun s => s.cbf.Above hash fun key => min (s.exact key) CBF.uintMax)
      (habove.mono fun _ => min_le_left _ _)
      fun hs hC hstep => above_exact_step hs hC.1 hC.2 hstep
    obtain ⟨count, hcount, hle⟩ := h.estimate key
    exact ⟨count, hcount, by rwa [min_assoc, min_self] at hle⟩

/-! ## A key that hits a counter twice -/

/-- Two of three hash functions hit the first of two counters. -/
def twiceHash : KeyHash := fun seed _ => seed / 2

/-- The filter before the first update. -/
def twoCounters : CBF := { hashes := 3, counterNum := 2 }

theorem hashValues_twiceHash {c : CBF} (hhashes : c.hashes = 3) (hnum : c.counterNum = 2)
    (key : Key) : c.hashValues twiceHash key = [0, 0, 1] := by
  rw [hashValues, hhashes, hnum]
  rfl

/-- The filter after some updates of the key: the first counter has been incremented twice as
often. -/
theorem exists_updates (key : Key) {n : Nat} (hn : n ≤ 2 ^ 31) :
    ∃ tr s, Runs (step twiceHash) anyAction ⟨twoCounters, fun _ => 0, fun _ => 0⟩ tr s ∧
      s.exact key = n ∧ s.capped key = n ∧ s.cbf.hashes = 3 ∧ s.cbf.counterNum = 2 ∧
      (∀ i, s.cbf.counters i ≤ uintMax) ∧ s.cbf.counters 0 = 2 * n % 2 ^ 32 ∧
      s.cbf.counters 1 = n := by
  induction n with
  | zero =>
    exact ⟨[], _, .nil, rfl, rfl, rfl, rfl, fun _ => Nat.zero_le _, rfl, rfl⟩
  | succ n ih =>
    obtain ⟨tr, s, hrun, hexact, hcapped, hhashes, hnum, hlimit, hzero, hone⟩ := ih (by omega)
    have hvalues := hashValues_twiceHash hhashes hnum key
    have hmin : s.cbf.minCount (s.cbf.hashValues twiceHash key) ≠ uintMax := by
      intro hsaturated
      have hle := (SharedCounters.le_reading_iff.1 hsaturated.ge).2 1 (by simp [hvalues])
      rw [hone, uintMax] at hle
      omega
    have hupdate : ∃ cbf, s.cbf.update twiceHash key = some cbf := by
      have hne : s.cbf.counterNum ≠ 0 := by omega
      rw [CBF.update, access]
      simp only [require_bind hne, require_bind (hashValues_lt hne twiceHash key)]
      split
      · exact ⟨_, rfl⟩
      · exact ⟨_, rfl⟩
    obtain ⟨cbf, hupdate⟩ := hupdate
    obtain ⟨hhashes', hnum', hcounters⟩ := update_of_unsaturated hupdate hlimit hmin
    rw [hvalues] at hcounters
    have hstep : step twiceHash s (.update key) =
        some (⟨cbf, update s.exact key (s.exact key + 1),
          update s.capped key (min (s.capped key + 1) uintMax)⟩, none) := by
      simp only [step, hupdate, Option.map_some]
    refine ⟨_, _, .cons hrun trivial hstep, ?_, ?_, hhashes'.trans hhashes, hnum'.trans hnum,
      fun i => ?_, ?_, ?_⟩
    · simp [hexact]
    · have : n + 1 ≤ uintMax := by
        rw [uintMax]
        omega
      simp [hcapped, this]
    · have := Nat.mod_lt (s.cbf.counters i + [0, 0, 1].count i) (Nat.two_pow_pos 32)
      rw [hcounters, uintMax]
      omega
    · rw [hcounters, hzero]
      simp only [List.count_cons_self, List.count_cons, List.count_nil]
      simp
      omega
    · rw [hcounters, hone]
      simp
      omega

/-- After `2 ^ 31` updates of the key its first counter is zero again. -/
theorem estimate_below : ∃ tr s,
    Runs (step twiceHash) anyAction ⟨twoCounters, fun _ => 0, fun _ => 0⟩ tr s ∧
      s.cbf.estimate twiceHash ⟨[0]⟩ = some 0 ∧ s.exact ⟨[0]⟩ = 2 ^ 31 ∧
      s.capped ⟨[0]⟩ = 2 ^ 31 := by
  obtain ⟨tr, s, hrun, hexact, hcapped, hhashes, hnum, -, hzero, -⟩ :=
    exists_updates ⟨[0]⟩ (le_refl (2 ^ 31))
  refine ⟨tr, s, hrun, ?_, hexact, hcapped⟩
  have hle : s.cbf.minCount (s.cbf.hashValues twiceHash ⟨[0]⟩) ≤ s.cbf.counters 0 := by
    refine (SharedCounters.le_reading_iff.1 le_rfl).2 0 ?_
    simp [hashValues_twiceHash hhashes hnum]
  rw [CBF.estimate_eq (by omega)]
  simp only [Option.some.injEq]
  omega

/-- Two of three hash functions hit one of two counters, and the third one hits the other. -/
def crossHash : KeyHash := fun seed key => seed / 2 + key.getKeyLength

/-- Two keys share both counters; one of them is updated twice, and the counters decay. -/
theorem estimate_not_below_twoKeys : ∃ tr s,
    Runs (step crossHash) (fun s a => s.NoWrap crossHash a ∧ s.Unsaturated a)
      ⟨twoCounters, fun _ => 0, fun _ => 0⟩ tr s ∧
    s.exact ⟨[0]⟩ = 1 ∧ ∃ count, s.cbf.estimate crossHash ⟨[0]⟩ = some count ∧
      min (s.exact ⟨[0]⟩) CBF.uintMax ≤ count := by
  have hsmall : ∀ key : Key, update (update (update (fun _ => 0) (⟨[0]⟩ : Key) 1) ⟨[1, 1]⟩ 1)
      ⟨[0]⟩ 2 key ≤ CBF.uintMax := by
    intro key
    simp only [update_apply]
    split
    · decide
    · split <;> decide
  have hrun : Runs (step crossHash) (fun s a => s.NoWrap crossHash a ∧ s.Unsaturated a)
      ⟨twoCounters, fun _ => 0, fun _ => 0⟩ [(.decay, none), (.update ⟨[0]⟩, none),
        (.update ⟨[1, 1]⟩, none), (.update ⟨[0]⟩, none)] _ :=
    .cons (.cons (.cons (.cons .nil ⟨.inr (by decide), trivial⟩ rfl)
      ⟨.inr (by decide), trivial⟩ rfl)
      ⟨.inr (by decide), trivial⟩ rfl) ⟨trivial, hsmall⟩ rfl
  exact ⟨_, _, hrun, rfl, (estimate_not_below (by decide) rfl).2 hrun ⟨[0]⟩⟩

end CountedCBF

end Covered.Cache.Wtinylfu
