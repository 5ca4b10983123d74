import Mathlib.Algebra.Order.BigOperators.Group.List
import Mathlib.Algebra.Order.Field.Basic
import Mathlib.Tactic.Linarith
import Covered.Common.Util
import Covered.Lib.Execution
import Covered.Lib.SortBy

/-!
# Aggregated uncached popularity

The beacon of a key aggregates the local uncached popularities that the edges report for it: their
sum, the top-k of them in ascending order, and a bitmap of the edges that reported. The popularity
of an edge outside the top-k list is not stored; the average of the remainder stands for it.

`Invariant` is what every mix of operations keeps. Its heart is that the sum of the top-k list is at
most the sum: the popularity taken for an edge outside the list is at most the remainder
(`original_le_remainder`), so subtracting it never cuts into the list.
-/

set_option autoImplicit false

namespace Covered.Popularity

open Common Lib Lib.Checked Lib.Execution Lib.SortBy List

/-- Set of edge indices, in the order in which it is traversed. -/
abbrev Edgeset := List Nat

/-- Popularity of a key among the edges that do not cache it. -/
structure AggregatedUncachedPopularity where
  key : Key
  objectSize : Nat := 0
  sumLocalUncachedPopularity : Popularity := 0
  topk : List (Nat × Popularity) := []
  bitmap : List Bool
  existEdgecnt : Nat := 0

namespace AggregatedUncachedPopularity

/-- No popularity of a key among `edgecnt` edges. -/
def create (key : Key) (edgecnt : Nat) : AggregatedUncachedPopularity where
  key := key
  bitmap := List.replicate edgecnt false

def getTopkListLength (p : AggregatedUncachedPopularity) : Nat := p.topk.length

/-- Whether the edge reported a popularity; the edge index is asserted to be in range. -/
def hasLocalUncachedPopularity (p : AggregatedUncachedPopularity) (sourceEdgeIdx : Nat) :
    Option Bool :=
  p.bitmap[sourceEdgeIdx]?

/-! ## The top-k list -/

/-- The stored popularity of an edge in the list. -/
def getTopkListIterForEdgeIdx (topk : List (Nat × Popularity)) (sourceEdgeIdx : Nat) :
    Option Popularity :=
  (topk.find? fun pair => pair.1 == sourceEdgeIdx).map Prod.snd

/-- The list without the pair of an edge. -/
def eraseEdgeIdx (topk : List (Nat × Popularity)) (sourceEdgeIdx : Nat) :
    List (Nat × Popularity) :=
  topk.eraseP fun pair => pair.1 == sourceEdgeIdx

/-- Insert a pair in front of the first pair with a larger popularity. -/
def insertAscending (topk : List (Nat × Popularity)) (pair : Nat × Popularity) :
    List (Nat × Popularity) :=
  topk.orderedInsert (fun a b => a.2 < b.2) pair

/-- Insert an edge that is not in the list, in place of the smallest popularity if the list is full
and the new one is larger. Returns whether it was inserted. -/
def tryToInsertForNontopkEdgeIdx (topk : List (Nat × Popularity)) (sourceEdgeIdx : Nat)
    (popularity : Popularity) (topkEdgecnt : Nat) : Option (List (Nat × Popularity) × Bool) := do
  require (getTopkListIterForEdgeIdx topk sourceEdgeIdx = none)
  if topk.length ≥ topkEdgecnt then
    match topk with
    | [] => none
    | (_, minPopularity) :: rest =>
        if popularity > minPopularity then
          return (insertAscending rest (sourceEdgeIdx, popularity), true)
        else return (topk, false)
  else return (insertAscending topk (sourceEdgeIdx, popularity), true)

/-- Replace the popularity of an edge that reported before, in the list or not. -/
def updateTopkForExistingEdgeIdx (topk : List (Nat × Popularity)) (sourceEdgeIdx : Nat)
    (popularity : Popularity) (topkEdgecnt : Nat) : Option (List (Nat × Popularity)) := do
  let mustInsert := (getTopkListIterForEdgeIdx topk sourceEdgeIdx).isSome
  let (topk', isInsert) ←
    tryToInsertForNontopkEdgeIdx (eraseEdgeIdx topk sourceEdgeIdx) sourceEdgeIdx popularity
      topkEdgecnt
  require (mustInsert = true → isInsert = true)
  return topk'

/-! ## The operations -/

/-- The stored popularity of an edge in the list, else the average of the popularities outside. -/
def getLocalUncachedPopularityForExistingEdgeIdx (p : AggregatedUncachedPopularity)
    (sourceEdgeIdx : Nat) : Option Popularity := do
  require (p.bitmap[sourceEdgeIdx]? = some true)
  match getTopkListIterForEdgeIdx p.topk sourceEdgeIdx with
  | some popularity => return popularity
  | none =>
      let sumTopk := (p.topk.map Prod.snd).sum
      require (sumTopk ≤ p.sumLocalUncachedPopularity)
      require (p.topk.length < p.existEdgecnt)
      return (p.sumLocalUncachedPopularity - sumTopk) / ((p.existEdgecnt - p.topk.length : Nat) : ℚ)

/-- The sum without a popularity, never negative. -/
def minusLocalUncachedPopularityFromSum (sum popularity : Popularity) : Popularity :=
  if sum - popularity < 0 then 0 else sum - popularity

/-- An edge reports its local uncached popularity. -/
def update (p : AggregatedUncachedPopularity) (sourceEdgeIdx : Nat) (popularity : Popularity)
    (topkEdgecnt objectSize : Nat) : Option AggregatedUncachedPopularity := do
  let isExisting ← p.bitmap[sourceEdgeIdx]?
  if isExisting = false then
    let (topk, _) ← tryToInsertForNontopkEdgeIdx p.topk sourceEdgeIdx popularity topkEdgecnt
    return { p with
      sumLocalUncachedPopularity := p.sumLocalUncachedPopularity + popularity
      topk := topk
      bitmap := p.bitmap.set sourceEdgeIdx true
      existEdgecnt := p.existEdgecnt + 1
      objectSize := objectSize }
  else
    let original ← p.getLocalUncachedPopularityForExistingEdgeIdx sourceEdgeIdx
    let topk ← updateTopkForExistingEdgeIdx p.topk sourceEdgeIdx popularity topkEdgecnt
    return { p with
      sumLocalUncachedPopularity := minusLocalUncachedPopularityFromSum
        (p.sumLocalUncachedPopularity + popularity) original
      topk := topk
      objectSize := objectSize }

/-- Forget the popularity of an edge. Returns whether no edge is left and whether there was one to
forget. -/
def clear (p : AggregatedUncachedPopularity) (sourceEdgeIdx : Nat) :
    Option (AggregatedUncachedPopularity × Bool × Bool) := do
  let isExisting ← p.bitmap[sourceEdgeIdx]?
  if isExisting then
    let original ← p.getLocalUncachedPopularityForExistingEdgeIdx sourceEdgeIdx
    require (p.existEdgecnt ≥ 1)
    return ({ p with
      sumLocalUncachedPopularity :=
        minusLocalUncachedPopularityFromSum p.sumLocalUncachedPopularity original
      topk := eraseEdgeIdx p.topk sourceEdgeIdx
      bitmap := p.bitmap.set sourceEdgeIdx false
      existEdgecnt := p.existEdgecnt - 1 }, decide (p.existEdgecnt - 1 = 0), true)
  else return (p, decide (p.existEdgecnt = 0), false)

/-- Forget the popularities of the edges of a placement, in any order of the set. -/
def clearForPlacement (p : AggregatedUncachedPopularity) :
    Edgeset → Option (AggregatedUncachedPopularity × Bool)
  | [] => some (p, decide (p.existEdgecnt = 0))
  | edgeIdx :: rest => do
      let (p', _) ← p.clear edgeIdx
      p'.clearForPlacement rest

/-- The sum of the largest `topicnt` popularities of the list and the edges they are of. -/
def getTopiLocalUncachedPopularitySum (p : AggregatedUncachedPopularity) (r : Rounding)
    (topicnt : Nat) : Option (Popularity × Edgeset) := do
  require (topicnt ≤ p.topk.length)
  let topi := p.topk.drop (p.topk.length - topicnt)
  return (r.sum (topi.map Prod.snd), topi.map Prod.fst)

/-- The benefit of admitting the key at the `topicnt` edges with the largest popularities; the
weighting of popularities is a parameter. -/
def calcAdmissionBenefit (p : AggregatedUncachedPopularity) (r : Rounding)
    (calcLocalUncachedReward : Popularity → Bool → Popularity → DeltaReward) (topicnt : Nat)
    (isGlobalCached : Bool) : Option (DeltaReward × Edgeset) := do
  let (topi, placementEdgeset) ← p.getTopiLocalUncachedPopularitySum r topicnt
  require (isApproxLargerEqual p.sumLocalUncachedPopularity topi = true)
  let sumMinusTopi := popularityNonegMinus r p.sumLocalUncachedPopularity topi
  return (calcLocalUncachedReward topi isGlobalCached sumMinusTopi, placementEdgeset)

def calcMaxAdmissionBenefit (p : AggregatedUncachedPopularity)
    (calcLocalUncachedReward : Popularity → Bool → Popularity → DeltaReward)
    (isGlobalCached : Bool) : Option DeltaReward :=
  (p.calcAdmissionBenefit .exact calcLocalUncachedReward p.topk.length isGlobalCached).map Prod.fst

/-- Bytes counted for the capacity of the aggregation. -/
def getSizeForCapacity (p : AggregatedUncachedPopularity) : Nat :=
  p.key.getKeyLength + 4 + 4 + p.topk.length * (4 + 4) + ((p.bitmap.length - 1) / 8 + 1) + 4

/-! ## Operations keep the key -/

section Key

variable {p p' : AggregatedUncachedPopularity} {edgeIdx : Nat}

theorem update_key {popularity : Popularity} {topkEdgecnt objectSize : Nat}
    (h : p.update edgeIdx popularity topkEdgecnt objectSize = some p') : p'.key = p.key := by
  simp only [update, Option.bind_eq_bind, Option.bind_eq_some_iff] at h
  obtain ⟨isExisting, -, h⟩ := h
  split at h
  · simp only [Option.bind_eq_some_iff] at h
    obtain ⟨_, -, heq⟩ := h
    cases heq
    rfl
  · simp only [Option.bind_eq_some_iff] at h
    obtain ⟨original, -, topk, -, heq⟩ := h
    cases heq
    rfl

theorem clear_key {isEmpty isClear : Bool}
    (h : p.clear edgeIdx = some (p', isEmpty, isClear)) : p'.key = p.key := by
  simp only [clear, Option.bind_eq_bind, Option.bind_eq_some_iff] at h
  obtain ⟨isExisting, -, h⟩ := h
  split at h
  · simp only [Option.bind_eq_some_iff] at h
    obtain ⟨original, -, -, -, heq⟩ := h
    cases heq
    rfl
  · cases h
    rfl

theorem clearForPlacement_key {edges : Edgeset} {isEmpty : Bool}
    (h : p.clearForPlacement edges = some (p', isEmpty)) : p'.key = p.key := by
  induction edges generalizing p with
  | nil =>
    cases h
    rfl
  | cons edgeIdx rest ih =>
    simp only [clearForPlacement, bind_eq_some_iff] at h
    obtain ⟨⟨p₁, isEmpty₁, isClear₁⟩, hclear, h⟩ := h
    rw [ih h, clear_key hclear]

end Key

/-! ## The top-k list stays ordered -/

/-- What holds of a top-k list: ascending popularities, distinct edges, at most `k` of them, none
negative. -/
structure TopkInvariant (k : Nat) (topk : List (Nat × Popularity)) : Prop where
  sorted : Ascending Prod.snd topk
  distinct : (topk.map Prod.fst).Nodup
  length_le : topk.length ≤ k
  nonneg : ∀ pair ∈ topk, 0 ≤ pair.2

section Topk

variable {k : Nat} {topk topk' : List (Nat × Popularity)} {edgeIdx : Nat} {popularity : Popularity}

theorem TopkInvariant.sublist (h : TopkInvariant k topk) (hsub : topk'.Sublist topk) :
    TopkInvariant k topk' where
  sorted := List.Pairwise.sublist hsub h.sorted
  distinct := h.distinct.sublist (hsub.map Prod.fst)
  length_le := hsub.length_le.trans h.length_le
  nonneg := fun pair hpair => h.nonneg pair (hsub.subset hpair)

theorem getTopk_eq_none_iff :
    getTopkListIterForEdgeIdx topk edgeIdx = none ↔ edgeIdx ∉ topk.map Prod.fst := by
  rw [getTopkListIterForEdgeIdx, Option.map_eq_none_iff, find?_eq_none]
  constructor
  · intro h hmem
    obtain ⟨pair, hpair, rfl⟩ := mem_map.1 hmem
    exact h pair hpair (beq_self_eq_true _)
  · intro h pair hpair hbeq
    exact h (eq_of_beq hbeq ▸ mem_map_of_mem hpair)

/-- An edge in the list splits it into its pair and the rest. -/
theorem perm_eraseEdgeIdx (h : getTopkListIterForEdgeIdx topk edgeIdx = some popularity) :
    topk.Perm ((edgeIdx, popularity) :: eraseEdgeIdx topk edgeIdx) := by
  induction topk with
  | nil => simp [getTopkListIterForEdgeIdx] at h
  | cons pair rest ih =>
    by_cases hpair : pair.1 = edgeIdx
    · simp only [getTopkListIterForEdgeIdx, find?_cons, hpair, beq_self_eq_true,
        Option.map_some, Option.some.injEq] at h
      have heq : pair = (edgeIdx, popularity) := Prod.ext hpair h
      simp [eraseEdgeIdx, heq]
    · have hbeq : (pair.1 == edgeIdx) = false := by simpa using hpair
      have htail : getTopkListIterForEdgeIdx rest edgeIdx = some popularity := by
        simpa [getTopkListIterForEdgeIdx, find?_cons, hbeq] using h
      have hperm := (ih htail).cons pair
      simp only [eraseEdgeIdx, eraseP_cons, hbeq]
      exact hperm.trans (List.Perm.swap _ _ _)

theorem eraseEdgeIdx_eq_self (h : getTopkListIterForEdgeIdx topk edgeIdx = none) :
    eraseEdgeIdx topk edgeIdx = topk := by
  rw [getTopk_eq_none_iff] at h
  refine eraseP_of_forall_not fun pair hpair => ?_
  have hne : pair.1 ≠ edgeIdx := fun heq => h (heq ▸ mem_map_of_mem hpair)
  simpa using hne

theorem sum_of_perm {pair : Nat × Popularity} (h : topk.Perm (pair :: topk')) :
    (topk.map Prod.snd).sum = pair.2 + (topk'.map Prod.snd).sum := by
  rw [(h.map Prod.snd).sum_eq, map_cons, sum_cons]

theorem notMem_eraseEdgeIdx (h : (topk.map Prod.fst).Nodup) :
    edgeIdx ∉ (eraseEdgeIdx topk edgeIdx).map Prod.fst := by
  cases hget : getTopkListIterForEdgeIdx topk edgeIdx with
  | none =>
    rw [eraseEdgeIdx_eq_self hget]
    exact getTopk_eq_none_iff.1 hget
  | some popularity =>
    have hnodup := ((perm_eraseEdgeIdx hget).map Prod.fst).nodup_iff.1 h
    exact (nodup_cons.1 hnodup).1

theorem TopkInvariant.insertAscending (h : TopkInvariant k topk) (hlt : topk.length < k)
    (hnot : edgeIdx ∉ topk.map Prod.fst) (hpop : 0 ≤ popularity) :
    TopkInvariant k (insertAscending topk (edgeIdx, popularity)) := by
  have hperm : (AggregatedUncachedPopularity.insertAscending topk (edgeIdx, popularity)).Perm
      ((edgeIdx, popularity) :: topk) := perm_orderedInsert _ _ _
  refine ⟨h.sorted.orderedInsert _, ?_, ?_, ?_⟩
  · rw [(hperm.map Prod.fst).nodup_iff, map_cons, nodup_cons]
    exact ⟨hnot, h.distinct⟩
  · rw [hperm.length_eq, length_cons]
    exact hlt
  · intro pair hpair
    rcases mem_cons.1 (hperm.mem_iff.1 hpair) with rfl | hpair
    · exact hpop
    · exact h.nonneg pair hpair

/-- The list after an insertion: still ordered, made of the old pairs and the new one, and its sum
grew by at most the new popularity. -/
structure InsertSpec (k : Nat) (topk : List (Nat × Popularity)) (edgeIdx : Nat)
    (popularity : Popularity) (topk' : List (Nat × Popularity)) : Prop where
  invariant : TopkInvariant k topk'
  mem : ∀ pair ∈ topk', pair = (edgeIdx, popularity) ∨ pair ∈ topk
  sum_le : (topk'.map Prod.snd).sum ≤ (topk.map Prod.snd).sum + popularity
  ne_nil : topk' ≠ []

theorem insertSpec_insertAscending (h : TopkInvariant k topk) (hlt : topk.length < k)
    (hnot : edgeIdx ∉ topk.map Prod.fst) (hpop : 0 ≤ popularity) :
    InsertSpec k topk edgeIdx popularity (insertAscending topk (edgeIdx, popularity)) := by
  have hperm : (insertAscending topk (edgeIdx, popularity)).Perm
      ((edgeIdx, popularity) :: topk) := perm_orderedInsert _ _ _
  refine ⟨h.insertAscending hlt hnot hpop, fun pair hpair => ?_, ?_, ?_⟩
  · exact mem_cons.1 (hperm.mem_iff.1 hpair)
  · rw [sum_of_perm hperm]
    exact le_of_eq (add_comm _ _)
  · intro hnil
    rw [hnil] at hperm
    exact cons_ne_nil _ _ (nil_perm.1 hperm)

/-- The insertion of an edge that is not in the list does not abort, and it takes place if the list
is not full. -/
theorem tryToInsert_spec (h : TopkInvariant k topk) (hk : 1 ≤ k)
    (hnot : edgeIdx ∉ topk.map Prod.fst) (hpop : 0 ≤ popularity) :
    ∃ topk' isInsert,
      tryToInsertForNontopkEdgeIdx topk edgeIdx popularity k = some (topk', isInsert) ∧
        InsertSpec k topk edgeIdx popularity topk' ∧ (topk.length < k → isInsert = true) := by
  have hrequire := getTopk_eq_none_iff.2 hnot
  unfold tryToInsertForNontopkEdgeIdx
  simp only [require_bind hrequire]
  split
  · next hfull =>
    cases topk with
    | nil =>
      simp only [length_nil] at hfull
      omega
    | cons pair rest =>
      have hrest : TopkInvariant k rest := h.sublist (sublist_cons_self pair rest)
      have hlength := h.length_le
      rw [length_cons] at hlength hfull
      rw [map_cons, mem_cons, not_or] at hnot
      simp only
      split
      · have hspec := insertSpec_insertAscending hrest (by omega) hnot.2 hpop
        refine ⟨_, _, rfl, ⟨hspec.invariant, fun q hq => ?_, ?_, hspec.ne_nil⟩, fun _ => rfl⟩
        · exact (hspec.mem q hq).imp id fun hmem => mem_cons_of_mem pair hmem
        · have hmin : 0 ≤ pair.2 := h.nonneg pair mem_cons_self
          have hsum := hspec.sum_le
          rw [map_cons, sum_cons]
          linarith
      · refine ⟨_, _, rfl, ⟨h, fun q hq => .inr hq, ?_, cons_ne_nil _ _⟩, fun hlt => ?_⟩
        · linarith
        · rw [length_cons] at hlt
          omega
  · next hroom =>
    exact ⟨_, _, rfl, insertSpec_insertAscending h (by omega) hnot hpop, fun _ => rfl⟩

end Topk

/-! ## Bits of the bitmap -/

theorem length_filter_range (bitmap : List Bool) :
    ((range bitmap.length).filter fun i => bitmap[i]? == some true).length =
      bitmap.count true := by
  induction bitmap with
  | nil => rfl
  | cons bit rest ih =>
    rw [length_cons, range_succ_eq_map, filter_cons, filter_map]
    cases bit <;> simp [Function.comp_def, ih]

variable {bitmap : List Bool}

/-- Distinct edges whose bit is set are at most as many as the set bits. -/
theorem length_le_count {edges : List Nat} (hnodup : edges.Nodup)
    (hbit : ∀ e ∈ edges, bitmap[e]? = some true) : edges.length ≤ bitmap.count true := by
  rw [← length_filter_range]
  refine List.Subperm.length_le (subperm_of_subset hnodup fun e he => ?_)
  obtain ⟨hlt, hget⟩ := List.getElem?_eq_some_iff.1 (hbit e he)
  simp [mem_filter, hlt, hget]

theorem count_set_true {e : Nat} (h : bitmap[e]? = some false) :
    (bitmap.set e true).count true = bitmap.count true + 1 := by
  obtain ⟨hlt, hget⟩ := List.getElem?_eq_some_iff.1 h
  rw [count_set hlt, hget]
  simp

theorem count_set_false {e : Nat} (h : bitmap[e]? = some true) :
    (bitmap.set e false).count true = bitmap.count true - 1 := by
  obtain ⟨hlt, hget⟩ := List.getElem?_eq_some_iff.1 h
  rw [count_set hlt, hget]
  simp

/-! ## The invariant of the operations -/

/-- What every mix of operations keeps, for a top-k count `k`. -/
structure Invariant (k : Nat) (p : AggregatedUncachedPopularity) : Prop where
  topk : TopkInvariant k p.topk
  bit_set : ∀ pair ∈ p.topk, p.bitmap[pair.1]? = some true
  edgecnt_eq : p.existEdgecnt = p.bitmap.count true
  sum_topk_le : (p.topk.map Prod.snd).sum ≤ p.sumLocalUncachedPopularity

theorem TopkInvariant.sum_nonneg {k : Nat} {topk : List (Nat × Popularity)}
    (h : TopkInvariant k topk) : 0 ≤ (topk.map Prod.snd).sum := by
  refine List.sum_nonneg fun x hx => ?_
  obtain ⟨pair, hpair, rfl⟩ := mem_map.1 hx
  exact h.nonneg pair hpair

theorem invariant_create (k : Nat) (key : Key) (edgecnt : Nat) :
    Invariant k (create key edgecnt) where
  topk := ⟨List.Pairwise.nil, nodup_nil, Nat.zero_le k, by simp [create]⟩
  bit_set := by simp [create]
  edgecnt_eq := by simp [create, count_replicate]
  sum_topk_le := by simp [create]

section Steps

variable {k : Nat} {p : AggregatedUncachedPopularity} {edgeIdx : Nat}

/-- The popularity taken for an edge that reported: it is not negative, and without the pair of this
edge the list still sums up to at most the remaining sum. -/
theorem original_le_remainder (hinv : Invariant k p) (hbit : p.bitmap[edgeIdx]? = some true) :
    ∃ original, p.getLocalUncachedPopularityForExistingEdgeIdx edgeIdx = some original ∧
      0 ≤ original ∧
      ((eraseEdgeIdx p.topk edgeIdx).map Prod.snd).sum + original ≤
        p.sumLocalUncachedPopularity := by
  unfold getLocalUncachedPopularityForExistingEdgeIdx
  simp only [Option.bind_eq_bind, require_bind_of hbit]
  cases hget : getTopkListIterForEdgeIdx p.topk edgeIdx with
  | some original =>
    have hperm := perm_eraseEdgeIdx hget
    refine ⟨original, rfl, ?_, ?_⟩
    · exact hinv.topk.nonneg _ (hperm.mem_iff.2 mem_cons_self)
    · have hsum := hinv.sum_topk_le
      rw [sum_of_perm hperm] at hsum
      linarith
  | none =>
    have hnot := getTopk_eq_none_iff.1 hget
    have hcount : p.topk.length < p.existEdgecnt := by
      have hbits : ∀ e ∈ edgeIdx :: p.topk.map Prod.fst, p.bitmap[e]? = some true := by
        intro e he
        rcases mem_cons.1 he with rfl | he
        · exact hbit
        · obtain ⟨pair, hpair, rfl⟩ := mem_map.1 he
          exact hinv.bit_set pair hpair
      have hle := length_le_count (nodup_cons.2 ⟨hnot, hinv.topk.distinct⟩) hbits
      rw [length_cons, length_map, ← hinv.edgecnt_eq] at hle
      exact hle
    have hpos : (1 : ℚ) ≤ ((p.existEdgecnt - p.topk.length : Nat) : ℚ) := by
      exact_mod_cast Nat.sub_pos_of_lt hcount
    have hrest : 0 ≤ p.sumLocalUncachedPopularity - (p.topk.map Prod.snd).sum := by
      have := hinv.sum_topk_le
      linarith
    refine ⟨_, by simp only [require_bind_of hinv.sum_topk_le, require_bind_of hcount]; rfl,
      ?_, ?_⟩
    · exact div_nonneg hrest (by linarith)
    · rw [eraseEdgeIdx_eq_self hget]
      have hdiv := div_le_self hrest hpos
      linarith

variable {popularity : Popularity}

theorem minus_eq {sum : Popularity} (h : popularity ≤ sum) :
    minusLocalUncachedPopularityFromSum sum popularity = sum - popularity := by
  unfold minusLocalUncachedPopularityFromSum
  rw [if_neg (by linarith)]

section Invariant

variable (hinv : Invariant k p)
include hinv

theorem bit_set_of_mem {topk topk' : List (Nat × Popularity)} (hedge : edgeIdx < p.bitmap.length)
    (hsub : topk ⊆ p.topk) (hspec : InsertSpec k topk edgeIdx popularity topk')
    (pair : Nat × Popularity) (hpair : pair ∈ topk') :
    (p.bitmap.set edgeIdx true)[pair.1]? = some true := by
  by_cases he : edgeIdx = pair.1
  · rw [← he, getElem?_set_self hedge]
  · rw [getElem?_set_ne he]
    rcases hspec.mem pair hpair with rfl | hmem
    · exact absurd rfl he
    · exact hinv.bit_set pair (hsub hmem)

/-- A report of an edge for which nothing is known. -/
theorem update_new_spec (hk : 1 ≤ k) (hbit : p.bitmap[edgeIdx]? = some false)
    (hpop : 0 ≤ popularity) (objectSize : Nat) :
    ∃ p', p.update edgeIdx popularity k objectSize = some p' ∧ Invariant k p' ∧
      p'.bitmap = p.bitmap.set edgeIdx true ∧ p'.key = p.key ∧ p'.topk ≠ [] := by
  have hedge : edgeIdx < p.bitmap.length := (List.getElem?_eq_some_iff.1 hbit).1
  have hnot : edgeIdx ∉ p.topk.map Prod.fst := by
    intro hmem
    obtain ⟨pair, hpair, rfl⟩ := mem_map.1 hmem
    rw [hinv.bit_set pair hpair] at hbit
    cases hbit
  obtain ⟨topk', isInsert, hinsert, hspec, -⟩ := tryToInsert_spec hinv.topk hk hnot hpop
  simp only [update, hbit, some_bind, if_true, hinsert]
  refine ⟨_, rfl, ⟨hspec.invariant, ?_, ?_, ?_⟩, rfl, rfl, hspec.ne_nil⟩
  · exact bit_set_of_mem hinv hedge (List.Subset.refl _) hspec
  · rw [count_set_true hbit, ← hinv.edgecnt_eq]
  · exact hspec.sum_le.trans (add_le_add hinv.sum_topk_le (le_refl popularity))

/-- A report of an edge that reported before: its old popularity is taken out first. -/
theorem update_existing_spec (hk : 1 ≤ k) (hbit : p.bitmap[edgeIdx]? = some true)
    (hpop : 0 ≤ popularity) (objectSize : Nat) :
    ∃ p', p.update edgeIdx popularity k objectSize = some p' ∧ Invariant k p' ∧
      p'.bitmap = p.bitmap.set edgeIdx true ∧ p'.key = p.key ∧ p'.topk ≠ [] := by
  obtain ⟨hedge, hget⟩ := List.getElem?_eq_some_iff.1 hbit
  have hset : p.bitmap.set edgeIdx true = p.bitmap := by
    rw [← hget, set_getElem_self]
  obtain ⟨original, horiginal, hnonneg, hrest⟩ := original_le_remainder hinv hbit
  have hsub : (eraseEdgeIdx p.topk edgeIdx).Sublist p.topk := eraseP_sublist
  have hrestInv := hinv.topk.sublist hsub
  obtain ⟨topk', isInsert, hinsert, hspec, hroom⟩ :=
    tryToInsert_spec hrestInv hk (notMem_eraseEdgeIdx hinv.topk.distinct) hpop
  have hmust : (getTopkListIterForEdgeIdx p.topk edgeIdx).isSome = true → isInsert = true := by
    intro hsome
    obtain ⟨old, hold⟩ := Option.isSome_iff_exists.1 hsome
    apply hroom
    have hlength := (perm_eraseEdgeIdx hold).length_eq
    have hle := hinv.topk.length_le
    rw [length_cons] at hlength
    omega
  have htopk : updateTopkForExistingEdgeIdx p.topk edgeIdx popularity k = some topk' := by
    simp only [updateTopkForExistingEdgeIdx, hinsert, some_bind, require_bind hmust]
    rfl
  have hzero : 0 ≤ ((eraseEdgeIdx p.topk edgeIdx).map Prod.snd).sum := hrestInv.sum_nonneg
  have hle : original ≤ p.sumLocalUncachedPopularity + popularity := by linarith
  have hminus := minus_eq hle
  simp only [update, hbit, some_bind, Bool.true_eq_false, if_false, horiginal, htopk]
  refine ⟨_, rfl, ⟨hspec.invariant, ?_, hinv.edgecnt_eq, ?_⟩, hset.symm, rfl, hspec.ne_nil⟩
  · intro pair hpair
    have hmem := bit_set_of_mem hinv hedge hsub.subset hspec pair hpair
    rwa [hset] at hmem
  · have hsum := hspec.sum_le
    rw [hminus]
    linarith

/-- A report keeps the invariant and does not abort. -/
theorem update_spec (hk : 1 ≤ k) (hedge : edgeIdx < p.bitmap.length) (hpop : 0 ≤ popularity)
    (objectSize : Nat) :
    ∃ p', p.update edgeIdx popularity k objectSize = some p' ∧ Invariant k p' ∧
      p'.bitmap = p.bitmap.set edgeIdx true ∧ p'.key = p.key ∧ p'.topk ≠ [] := by
  have hget := getElem?_eq_getElem hedge
  cases hbit : p.bitmap[edgeIdx] with
  | false => exact update_new_spec hinv hk (hget.trans (congrArg some hbit)) hpop objectSize
  | true => exact update_existing_spec hinv hk (hget.trans (congrArg some hbit)) hpop objectSize

/-- Forgetting an edge keeps the invariant and does not abort. -/
theorem clear_spec (hedge : edgeIdx < p.bitmap.length) :
    ∃ p' isEmpty isClear, p.clear edgeIdx = some (p', isEmpty, isClear) ∧ Invariant k p' ∧
      p'.bitmap = p.bitmap.set edgeIdx false ∧ p'.key = p.key ∧
      (isEmpty = true ↔ p'.existEdgecnt = 0) := by
  have hget := getElem?_eq_getElem hedge
  cases hval : p.bitmap[edgeIdx] with
  | false =>
    have hbit : p.bitmap[edgeIdx]? = some false := hget.trans (congrArg some hval)
    simp only [clear, hbit, some_bind, Bool.false_eq_true, if_false]
    refine ⟨p, _, _, rfl, hinv, ?_, rfl, decide_eq_true_iff⟩
    rw [← hval, set_getElem_self]
  | true =>
    have hbit : p.bitmap[edgeIdx]? = some true := hget.trans (congrArg some hval)
    obtain ⟨original, horiginal, hnonneg, hrest⟩ := original_le_remainder hinv hbit
    have hcount : p.existEdgecnt ≥ 1 := by
      rw [hinv.edgecnt_eq]
      exact count_pos_iff.2 (mem_of_getElem? hbit)
    have hsub : (eraseEdgeIdx p.topk edgeIdx).Sublist p.topk := eraseP_sublist
    have hzero : 0 ≤ ((eraseEdgeIdx p.topk edgeIdx).map Prod.snd).sum :=
      (hinv.topk.sublist hsub).sum_nonneg
    simp only [clear, hbit, some_bind, if_true, horiginal, require_bind hcount]
    refine ⟨_, _, _, rfl, ⟨hinv.topk.sublist hsub, ?_, ?_, ?_⟩, rfl, rfl, decide_eq_true_iff⟩
    · intro pair hpair
      have hne : edgeIdx ≠ pair.1 := by
        rintro rfl
        exact notMem_eraseEdgeIdx hinv.topk.distinct (mem_map_of_mem hpair)
      rw [getElem?_set_ne hne]
      exact hinv.bit_set pair (hsub.subset hpair)
    · rw [count_set_false hbit, ← hinv.edgecnt_eq]
    · rw [minus_eq (by linarith)]
      linarith

/-- Forgetting the edges of a placement keeps the invariant, does not abort and leaves none of
their bits set. -/
theorem clearForPlacement_spec {edges : Edgeset} (hedges : ∀ e ∈ edges, e < p.bitmap.length) :
    ∃ p' isEmpty, p.clearForPlacement edges = some (p', isEmpty) ∧ Invariant k p' ∧
      p'.bitmap.length = p.bitmap.length ∧ p'.key = p.key ∧
      (isEmpty = true ↔ p'.existEdgecnt = 0) ∧
      (∀ e ∈ edges, p'.bitmap[e]? = some false) ∧
      ∀ e : Nat, p.bitmap[e]? = some false → p'.bitmap[e]? = some false := by
  induction edges generalizing p with
  | nil =>
    exact ⟨p, _, rfl, hinv, rfl, rfl, decide_eq_true_iff, by simp, fun _ h => h⟩
  | cons e rest ih =>
    have he : e < p.bitmap.length := hedges e mem_cons_self
    obtain ⟨p₁, b₁, c₁, hclear, hinv₁, hbitmap, hkey₁, -⟩ := clear_spec hinv he
    have hlength : p₁.bitmap.length = p.bitmap.length := by rw [hbitmap, length_set]
    obtain ⟨p', isEmpty, hrest, hinv', hlength', hkey', hempty, hgone, hkeep⟩ :=
      ih hinv₁ fun e' he' => by rw [hlength]; exact hedges e' (mem_cons_of_mem e he')
    refine ⟨p', isEmpty, ?_, hinv', hlength'.trans hlength, hkey'.trans hkey₁, hempty, ?_, ?_⟩
    · simp [clearForPlacement, hclear, hrest]
    · intro e' he'
      rcases mem_cons.1 he' with rfl | he'
      · exact hkeep e' (by rw [hbitmap, getElem?_set_self he])
      · exact hgone e' he'
    · intro e' hfalse
      refine hkeep e' ?_
      rw [hbitmap]
      by_cases hee : e = e'
      · rw [← hee, getElem?_set_self he]
      · rw [getElem?_set_ne hee, hfalse]

/-- The benefit of the largest popularities of the list is computed without an abort. -/
theorem calcAdmissionBenefit_isSome {topicnt : Nat} (htopi : topicnt ≤ p.topk.length)
    (calcLocalUncachedReward : Popularity → Bool → Popularity → DeltaReward)
    (isGlobalCached : Bool) :
    ∃ r, p.calcAdmissionBenefit .exact calcLocalUncachedReward topicnt isGlobalCached =
      some r := by
  have hsum : ((p.topk.drop (p.topk.length - topicnt)).map Prod.snd).sum ≤
      p.sumLocalUncachedPopularity := by
    have hsplit : (p.topk.map Prod.snd).sum =
        ((p.topk.take (p.topk.length - topicnt)).map Prod.snd).sum +
          ((p.topk.drop (p.topk.length - topicnt)).map Prod.snd).sum := by
      rw [← sum_append, ← map_append, take_append_drop]
    have htake : 0 ≤ ((p.topk.take (p.topk.length - topicnt)).map Prod.snd).sum :=
      (hinv.topk.sublist (take_sublist _ _)).sum_nonneg
    have hle := hinv.sum_topk_le
    linarith
  simp only [calcAdmissionBenefit, getTopiLocalUncachedPopularitySum, require_bind htopi,
    Option.pure_def, some_bind, Rounding.exact_sum, require_bind (isApproxLargerEqual_of_le hsum)]
  exact ⟨_, rfl⟩

end Invariant

end Steps

/-! ## Bits after an operation, without the invariant

The clients of a popularity only look at the bits; these facts hold for any popularities reported,
also for negative ones. -/

/-- The list has distinct edges, all with their bit set. -/
structure TopkBits (p : AggregatedUncachedPopularity) : Prop where
  distinct : (p.topk.map Prod.fst).Nodup
  bit_set : ∀ pair ∈ p.topk, p.bitmap[pair.1]? = some true

section Bits

variable {k : Nat} {p p' : AggregatedUncachedPopularity} {edgeIdx objectSize : Nat}
  {popularity : Popularity} {topk topk' : List (Nat × Popularity)}

theorem topkBits_create (key : Key) (edgecnt : Nat) : TopkBits (create key edgecnt) :=
  ⟨by simp [create], by simp [create]⟩

theorem set_eq_self_of_getElem? {bitmap : List Bool} {b : Bool} (h : bitmap[edgeIdx]? = some b) :
    bitmap.set edgeIdx b = bitmap := by
  obtain ⟨hlt, hget⟩ := List.getElem?_eq_some_iff.1 h
  rw [← hget, set_getElem_self]

/-- The list after an insertion has distinct edges, those of the list and the new one. -/
theorem distinct_insertAscending (popularity : Popularity) (hnot : edgeIdx ∉ topk.map Prod.fst)
    (hnodup : (topk.map Prod.fst).Nodup) :
    ((insertAscending topk (edgeIdx, popularity)).map Prod.fst).Nodup ∧
      ∀ pair ∈ insertAscending topk (edgeIdx, popularity), pair.1 = edgeIdx ∨ pair ∈ topk := by
  have hperm : (insertAscending topk (edgeIdx, popularity)).Perm
      ((edgeIdx, popularity) :: topk) := perm_orderedInsert _ _ _
  refine ⟨?_, fun pair hpair => ?_⟩
  · rw [(hperm.map Prod.fst).nodup_iff, map_cons]
    exact nodup_cons.2 ⟨hnot, hnodup⟩
  · rcases mem_cons.1 (hperm.mem_iff.1 hpair) with rfl | hmem
    · exact .inl rfl
    · exact .inr hmem

theorem distinct_tryToInsert {isInsert : Bool} (hnodup : (topk.map Prod.fst).Nodup)
    (h : tryToInsertForNontopkEdgeIdx topk edgeIdx popularity k = some (topk', isInsert)) :
    (topk'.map Prod.fst).Nodup ∧ ∀ pair ∈ topk', pair.1 = edgeIdx ∨ pair ∈ topk := by
  unfold tryToInsertForNontopkEdgeIdx at h
  rw [require_bind_iff] at h
  obtain ⟨hget, h⟩ := h
  have hnot := getTopk_eq_none_iff.1 hget
  split at h
  · cases topk with
    | nil => cases h
    | cons first rest =>
      rw [map_cons, nodup_cons] at hnodup
      rw [map_cons, mem_cons, not_or] at hnot
      simp only at h
      split at h <;> cases h
      · obtain ⟨hdistinct, hmem⟩ := distinct_insertAscending popularity hnot.2 hnodup.2
        exact ⟨hdistinct, fun pair hpair =>
          (hmem pair hpair).imp id fun hrest => mem_cons_of_mem first hrest⟩
      · exact ⟨nodup_cons.2 hnodup, fun pair hpair => .inr hpair⟩
  · cases h
    exact distinct_insertAscending popularity hnot hnodup

theorem topkBits_of_insert (hbits : TopkBits p) (hedge : edgeIdx < p.bitmap.length)
    (hbitmap : p'.bitmap = p.bitmap.set edgeIdx true) (hnodup : (p'.topk.map Prod.fst).Nodup)
    (hmem : ∀ pair ∈ p'.topk, pair.1 = edgeIdx ∨ pair ∈ p.topk) : TopkBits p' := by
  refine ⟨hnodup, fun pair hpair => ?_⟩
  rw [hbitmap]
  by_cases he : edgeIdx = pair.1
  · rw [← he, getElem?_set_self hedge]
  · rw [getElem?_set_ne he]
    rcases hmem pair hpair with heq | hold
    · exact absurd heq.symm he
    · exact hbits.bit_set pair hold

/-- A report sets the bit of its edge and no other. -/
theorem update_bits (hbits : TopkBits p)
    (h : p.update edgeIdx popularity k objectSize = some p') :
    TopkBits p' ∧ p'.bitmap = p.bitmap.set edgeIdx true := by
  simp only [update, Option.bind_eq_bind, Option.bind_eq_some_iff] at h
  obtain ⟨isExisting, hbit, h⟩ := h
  have hedge : edgeIdx < p.bitmap.length := (List.getElem?_eq_some_iff.1 hbit).1
  split at h
  · simp only [Option.bind_eq_some_iff] at h
    obtain ⟨⟨topk', isInsert⟩, hinsert, hp'⟩ := h
    obtain ⟨hnodup, hmem⟩ := distinct_tryToInsert hbits.distinct hinsert
    cases hp'
    exact ⟨topkBits_of_insert hbits hedge rfl hnodup hmem, rfl⟩
  · next hexisting =>
    simp only [updateTopkForExistingEdgeIdx, Option.bind_eq_bind, Option.bind_eq_some_iff] at h
    obtain ⟨original, -, topk', ⟨⟨topk'', isInsert⟩, hinsert, -, -, htopk⟩, hp'⟩ := h
    cases htopk
    cases hp'
    have hset : p.bitmap.set edgeIdx true = p.bitmap := by
      refine set_eq_self_of_getElem? ?_
      rw [hbit, eq_true_of_ne_false hexisting]
    have hsub : (eraseEdgeIdx p.topk edgeIdx).Sublist p.topk := eraseP_sublist
    obtain ⟨hnodup, hmem⟩ :=
      distinct_tryToInsert (hbits.distinct.sublist (hsub.map Prod.fst)) hinsert
    exact ⟨topkBits_of_insert hbits hedge hset.symm hnodup fun pair hpair =>
      (hmem pair hpair).imp id fun hrest => hsub.subset hrest, hset.symm⟩

/-- Forgetting an edge clears its bit and no other. -/
theorem clear_bits {isEmpty isClear : Bool} (hbits : TopkBits p)
    (h : p.clear edgeIdx = some (p', isEmpty, isClear)) :
    TopkBits p' ∧ p'.bitmap = p.bitmap.set edgeIdx false := by
  simp only [clear, Option.bind_eq_bind, Option.bind_eq_some_iff] at h
  obtain ⟨isExisting, hbit, h⟩ := h
  split at h
  · simp only [Option.bind_eq_some_iff] at h
    obtain ⟨original, -, -, -, hp'⟩ := h
    cases hp'
    have hsub : (eraseEdgeIdx p.topk edgeIdx).Sublist p.topk := eraseP_sublist
    refine ⟨⟨hbits.distinct.sublist (hsub.map Prod.fst), fun pair hpair => ?_⟩, rfl⟩
    have hne : edgeIdx ≠ pair.1 := by
      rintro rfl
      exact notMem_eraseEdgeIdx hbits.distinct (mem_map_of_mem hpair)
    rw [getElem?_set_ne hne]
    exact hbits.bit_set pair (hsub.subset hpair)
  · next hexisting =>
    cases h
    rw [eq_false_of_ne_true hexisting] at hbit
    exact ⟨hbits, (set_eq_self_of_getElem? hbit).symm⟩

/-- Forgetting the edges of a placement leaves only bits of other edges that were set before. -/
theorem clearForPlacement_bits {edges : Edgeset} {isEmpty : Bool} (hbits : TopkBits p)
    (h : p.clearForPlacement edges = some (p', isEmpty)) :
    TopkBits p' ∧ ∀ e : Nat, p'.bitmap[e]? = some true → e ∉ edges ∧ p.bitmap[e]? = some true := by
  induction edges generalizing p with
  | nil =>
    cases h
    exact ⟨hbits, fun e he => ⟨not_mem_nil, he⟩⟩
  | cons first rest ih =>
    simp only [clearForPlacement, bind_eq_some_iff] at h
    obtain ⟨⟨p₁, b, c⟩, hclear, hrest⟩ := h
    obtain ⟨hbits₁, hbitmap⟩ := clear_bits hbits hclear
    obtain ⟨hbits', hothers⟩ := ih hbits₁ hrest
    refine ⟨hbits', fun e he => ?_⟩
    obtain ⟨hnot, hbit⟩ := hothers e he
    have hne : first ≠ e := by
      rintro rfl
      rw [hbitmap, getElem?_set] at hbit
      split at hbit <;> simp_all
    rw [hbitmap, getElem?_set_ne hne] at hbit
    exact ⟨not_mem_cons_of_ne_of_not_mem hne.symm hnot, hbit⟩

/-- The edges of a placement have their bit set. -/
theorem bit_set_of_calcAdmissionBenefit (hbits : TopkBits p)
    {r : Rounding} {calcLocalUncachedReward : Popularity → Bool → Popularity → DeltaReward}
    {topicnt : Nat}
    {isGlobalCached : Bool} {benefit : DeltaReward} {edges : Edgeset}
    (h : p.calcAdmissionBenefit r calcLocalUncachedReward topicnt isGlobalCached =
      some (benefit, edges)) {e : Nat} (he : e ∈ edges) : p.bitmap[e]? = some true := by
  simp only [calcAdmissionBenefit, getTopiLocalUncachedPopularitySum, bind_eq_some_iff] at h
  obtain ⟨⟨topi, edges'⟩, ⟨-, -, htopi⟩, -, -, hedges⟩ := h
  cases htopi
  cases hedges
  obtain ⟨pair, hpair, rfl⟩ := mem_map.1 he
  exact hbits.bit_set pair (mem_of_mem_drop hpair)

end Bits

/-! ## Any mix of operations -/

/-- One operation on an aggregated uncached popularity. -/
inductive Operation
  | update (sourceEdgeIdx : Nat) (popularity : Popularity) (objectSize : Nat)
  | clear (sourceEdgeIdx : Nat)
  | clearForPlacement (placementEdgeset : Edgeset)
deriving DecidableEq

/-- One operation for a fixed top-k count; `none` is a failed assertion. -/
def step (k : Nat) (p : AggregatedUncachedPopularity) :
    Operation → Option (AggregatedUncachedPopularity × Unit)
  | .update source popularity objectSize =>
      (p.update source popularity k objectSize).map fun p' => (p', ())
  | .clear source => (p.clear source).map fun (p', _) => (p', ())
  | .clearForPlacement edges => (p.clearForPlacement edges).map fun (p', _) => (p', ())

/-- Popularities are not negative and edges are among the `edgecnt` edges. -/
def Operation.Valid (edgecnt : Nat) : Operation → Prop
  | .update source popularity _ => source < edgecnt ∧ 0 ≤ popularity
  | .clear source => source < edgecnt
  | .clearForPlacement edges => ∀ e ∈ edges, e < edgecnt

/-- One valid operation keeps the invariant and does not abort. -/
theorem step_spec {k edgecnt : Nat} (hk : 1 ≤ k) {p : AggregatedUncachedPopularity}
    (hinv : Invariant k p) (hlength : p.bitmap.length = edgecnt) {op : Operation}
    (hop : op.Valid edgecnt) :
    ∃ p', step k p op = some (p', ()) ∧ Invariant k p' ∧ p'.bitmap.length = edgecnt := by
  subst hlength
  cases op with
  | update source popularity objectSize =>
    obtain ⟨p', hp', hinv', hbitmap, -⟩ := update_spec hinv hk hop.1 hop.2 objectSize
    exact ⟨p', by simp [step, hp'], hinv', by rw [hbitmap, length_set]⟩
  | clear source =>
    obtain ⟨p', b, c, hp', hinv', hbitmap, -⟩ := clear_spec hinv hop
    exact ⟨p', by simp [step, hp'], hinv', by rw [hbitmap, length_set]⟩
  | clearForPlacement edges =>
    obtain ⟨p', b, hp', hinv', hlength', -⟩ := clearForPlacement_spec hinv hop
    exact ⟨p', by simp [step, hp'], hinv', hlength'⟩

/-- After any sequence of valid operations, for any number of edges and any top-k count of at least
one: the top-k list is ascending, has distinct edges, at most `k` of them, all with their bit set;
the number of edges is the number of set bits; the list sums up to at most the sum, which is not
negative; and no valid operation, no report of a known edge's popularity and no computation of an
admission benefit within the list aborts. -/
theorem popularity_invariant {k edgecnt : Nat} (hk : 1 ≤ k) (key : Key)
    {tr : List (Operation × Unit)} {p : AggregatedUncachedPopularity}
    (h : Runs (step k) (fun _ op => op.Valid edgecnt) (create key edgecnt) tr p) :
    (p.topk.Pairwise fun a b => a.2 ≤ b.2) ∧ (p.topk.map Prod.fst).Nodup ∧ p.topk.length ≤ k ∧
    (∀ pair ∈ p.topk, p.bitmap[pair.1]? = some true) ∧
    p.existEdgecnt = p.bitmap.count true ∧
    (p.topk.map Prod.snd).sum ≤ p.sumLocalUncachedPopularity ∧
    0 ≤ p.sumLocalUncachedPopularity ∧
    (∀ op : Operation, op.Valid edgecnt → step k p op ≠ none) ∧
    (∀ e, p.bitmap[e]? = some true →
      p.getLocalUncachedPopularityForExistingEdgeIdx e ≠ none) ∧
    ∀ calcLocalUncachedReward topicnt isGlobalCached, topicnt ≤ p.topk.length →
      p.calcAdmissionBenefit .exact calcLocalUncachedReward topicnt isGlobalCached ≠ none := by
  have hinv : Invariant k p ∧ p.bitmap.length = edgecnt := by
    refine h.invariant (P := fun p => Invariant k p ∧ p.bitmap.length = edgecnt)
      ⟨invariant_create k key edgecnt, by simp [create]⟩ ?_
    rintro t op t' ⟨⟩ ⟨ht, hlength⟩ hop hstep
    obtain ⟨p', hp', hinv', hlength'⟩ := step_spec hk ht hlength hop
    rw [hp'] at hstep
    cases hstep
    exact ⟨hinv', hlength'⟩
  obtain ⟨hinv, hlength⟩ := hinv
  refine ⟨hinv.topk.sorted, hinv.topk.distinct, hinv.topk.length_le, hinv.bit_set,
    hinv.edgecnt_eq, hinv.sum_topk_le, hinv.topk.sum_nonneg.trans hinv.sum_topk_le, ?_, ?_, ?_⟩
  · intro op hop hnone
    obtain ⟨p', hp', -⟩ := step_spec hk hinv hlength hop
    rw [hp'] at hnone
    cases hnone
  · intro e he hnone
    obtain ⟨original, horiginal, -⟩ := original_le_remainder hinv he
    rw [horiginal] at hnone
    cases hnone
  · intro calcReward topicnt isGlobalCached htopi hnone
    obtain ⟨r, hr⟩ := calcAdmissionBenefit_isSome hinv htopi calcReward isGlobalCached
    rw [hr] at hnone
    cases hnone

instance (edgecnt : Nat) : (op : Operation) → Decidable (op.Valid edgecnt)
  | .update source popularity _ =>
      inferInstanceAs (Decidable (source < edgecnt ∧ 0 ≤ popularity))
  | .clear source => inferInstanceAs (Decidable (source < edgecnt))
  | .clearForPlacement edges => inferInstanceAs (Decidable (∀ e ∈ edges, e < edgecnt))

/-- Three edges report with a top-k count of one, and the edge in the list is placed. -/
theorem popularity_invariant_placement :
    ∃ tr p, Runs (step 1) (fun _ op => op.Valid 3) (create ⟨[7]⟩ 3) tr p ∧
      p.existEdgecnt = 2 ∧ (p.topk.map Prod.snd).sum ≤ p.sumLocalUncachedPopularity := by
  have hexec : (exec (step 1) (fun _ op => op.Valid 3) (create ⟨[7]⟩ 3)
      [.update 0 4 10, .update 1 6 10, .update 2 5 10, .clearForPlacement [1]]).any
        (fun p => decide (p.existEdgecnt = 2)) = true := by
    decide +kernel
  obtain ⟨tr, p, hrun, -, hp⟩ := exists_runs_of_any hexec
  exact ⟨tr, p, hrun, of_decide_eq_true hp,
    (popularity_invariant (le_refl 1) ⟨[7]⟩ hrun).2.2.2.2.2.1⟩

end AggregatedUncachedPopularity

end Covered.Popularity
