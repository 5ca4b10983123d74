import Mathlib.Algebra.Order.BigOperators.Group.Finset
import Mathlib.Tactic.Ring
import Covered.Lib.Topmost
import Covered.Popularity.AggregatedUncachedPopularity

/-!
# Exact aggregation

With a top-k count of at least the number of edges no popularity is outside the top-k list, and none
is approximated. The popularity is then a representation of the naive map from each edge to its
latest report (`latest`): `Represents` says how, one lemma for each operation keeps it, and
`aggregation_exact` draws the consequences for the sum, the list and the admission benefit.

The most popular edges are a topmost subset of the existing edges. Edges of the same popularity make
several such subsets; they all have the same sum, and so the same benefit.
-/

set_option autoImplicit false

namespace Covered.Popularity.AggregatedUncachedPopularity

open Common Lib Lib.Checked Lib.Execution Lib.SortBy Function Option List

/-! ## The naive map -/

/-- The popularity of each edge that has one. -/
abbrev Reports := Nat → Option Popularity

/-- The naive map after an operation. -/
def Operation.apply (op : Operation) (reports : Reports) : Reports :=
  match op with
  | .update source popularity _ => Function.update reports source (some popularity)
  | .clear source => Function.update reports source none
  | .clearForPlacement edges => fun e => if e ∈ edges then none else reports e

/-- The popularity of the latest update of each edge, unless it has been cleared since. -/
def latest : List (Operation × Unit) → Reports
  | [] => fun _ => none
  | (op, _) :: earlier => op.apply (latest earlier)

/-- The edges that have a popularity. -/
def existing (edgecnt : Nat) (reports : Reports) : Finset Nat :=
  (Finset.range edgecnt).filter fun e => (reports e).isSome = true

/-- The popularity of an edge; zero if it has none. -/
def popularityOf (reports : Reports) (e : Nat) : Popularity := (reports e).getD 0

/-! ## The list as a representation of the map -/

/-- The list holds exactly the pairs of the map, in ascending order. -/
structure Holds (reports : Reports) (topk : List (Nat × Popularity)) : Prop where
  sorted : Ascending Prod.snd topk
  distinct : (topk.map Prod.fst).Nodup
  mem_iff : ∀ e popularity, (e, popularity) ∈ topk ↔ reports e = some popularity

section Holds

variable {reports : Reports} {topk : List (Nat × Popularity)} {e : Nat} {popularity : Popularity}

section Holds

variable (h : Holds reports topk)
include h

theorem Holds.mem_edges_iff : e ∈ topk.map Prod.fst ↔ (reports e).isSome = true := by
  rw [List.mem_map, isSome_iff_exists]
  constructor
  · rintro ⟨⟨e', x⟩, hmem, rfl⟩
    exact ⟨x, (h.mem_iff _ _).1 hmem⟩
  · rintro ⟨x, hx⟩
    exact ⟨(e, x), (h.mem_iff _ _).2 hx, rfl⟩

theorem Holds.notMem_of_none (hnone : reports e = none) : e ∉ topk.map Prod.fst := by
  rw [h.mem_edges_iff, hnone]
  exact Bool.false_ne_true

/-- The pair of an edge is found. -/
theorem Holds.getTopk_eq : getTopkListIterForEdgeIdx topk e = reports e := by
  cases hget : getTopkListIterForEdgeIdx topk e with
  | some x =>
    have hmem : (e, x) ∈ topk := (perm_eraseEdgeIdx hget).mem_iff.2 mem_cons_self
    exact ((h.mem_iff e x).1 hmem).symm
  | none =>
    cases hx : reports e with
    | none => rfl
    | some x =>
      have hmem := mem_map_of_mem (f := Prod.fst) ((h.mem_iff e x).2 hx)
      exact absurd hmem (getTopk_eq_none_iff.1 hget)

theorem Holds.insert (hnone : reports e = none) (popularity : Popularity) :
    Holds (Function.update reports e (some popularity))
      (insertAscending topk (e, popularity)) := by
  have hperm : (insertAscending topk (e, popularity)).Perm ((e, popularity) :: topk) :=
    perm_orderedInsert _ _ _
  refine ⟨h.sorted.orderedInsert _, ?_, fun e' x => ?_⟩
  · exact (distinct_insertAscending popularity (h.notMem_of_none hnone) h.distinct).1
  · rw [hperm.mem_iff, mem_cons, h.mem_iff]
    by_cases he : e' = e
    · subst he
      rw [update_self, hnone]
      simp [eq_comm]
    · rw [update_of_ne he]
      simp [he]

theorem Holds.erase (e : Nat) : Holds (Function.update reports e none) (eraseEdgeIdx topk e) := by
  have hsub : (eraseEdgeIdx topk e).Sublist topk := eraseP_sublist
  refine ⟨List.Pairwise.sublist hsub h.sorted, h.distinct.sublist (hsub.map Prod.fst),
    fun e' x => ?_⟩
  by_cases he : e' = e
  · subst he
    rw [update_self]
    refine iff_of_false (fun hmem => ?_) (some_ne_none x).symm
    exact notMem_eraseEdgeIdx h.distinct (mem_map_of_mem hmem)
  · rw [update_of_ne he, ← h.mem_iff]
    refine ⟨fun hmem => hsub.subset hmem, fun hmem => ?_⟩
    rwa [eraseEdgeIdx, mem_eraseP_of_neg]
    simpa using he

/-- The pairs of a part of the list sum up to the popularities of their edges. -/
theorem Holds.sum_sublist {part : List (Nat × Popularity)} (hpart : part.Sublist topk) :
    (part.map Prod.snd).sum = ∑ e ∈ (part.map Prod.fst).toFinset, popularityOf reports e := by
  rw [sum_toFinset _ (h.distinct.sublist (hpart.map Prod.fst)), List.map_map]
  congr 1
  apply map_congr_left
  rintro ⟨e, x⟩ hmem
  have hx := (h.mem_iff e x).1 (hpart.subset hmem)
  simp [popularityOf, hx]

/-- The edges of the list are the existing ones. -/
theorem Holds.toFinset_eq {edgecnt : Nat}
    (hrange : ∀ e popularity, reports e = some popularity → e < edgecnt) :
    (topk.map Prod.fst).toFinset = existing edgecnt reports := by
  ext e
  rw [List.mem_toFinset, h.mem_edges_iff, existing, Finset.mem_filter, Finset.mem_range]
  refine ⟨fun hsome => ⟨?_, hsome⟩, And.right⟩
  obtain ⟨x, hx⟩ := isSome_iff_exists.1 hsome
  exact hrange e x hx

/-- The list sums up to the sum over all edges. -/
theorem Holds.sum_eq {edgecnt : Nat}
    (hrange : ∀ e popularity, reports e = some popularity → e < edgecnt) :
    (topk.map Prod.snd).sum = ∑ e ∈ Finset.range edgecnt, popularityOf reports e := by
  rw [h.sum_sublist (List.Sublist.refl topk), h.toFinset_eq hrange, existing, Finset.sum_filter]
  apply Finset.sum_congr rfl
  intro e _
  cases hx : reports e with
  | none => simp [popularityOf, hx]
  | some x => simp

/-- There is room for an edge that has no popularity. -/
theorem Holds.length_lt {edgecnt : Nat}
    (hrange : ∀ e popularity, reports e = some popularity → e < edgecnt) (he : e < edgecnt)
    (hnone : reports e = none) : topk.length < edgecnt := by
  have hcard : (existing edgecnt reports).card < (Finset.range edgecnt).card := by
    apply Finset.card_lt_card
    rw [existing, Finset.filter_ssubset]
    exact ⟨e, Finset.mem_range.2 he, by rw [hnone]; exact Bool.false_ne_true⟩
  rw [← h.toFinset_eq hrange, toFinset_card_of_nodup h.distinct, length_map,
    Finset.card_range] at hcard
  exact hcard

end Holds

end Holds

/-! ## The popularity as a representation of the map -/

/-- Reports of edges in range, none negative. -/
def Bounded (edgecnt : Nat) (reports : Reports) : Prop :=
  ∀ e popularity, reports e = some popularity → e < edgecnt ∧ 0 ≤ popularity

/-- The popularity stands for the reports of the edges. -/
structure Represents (edgecnt : Nat) (reports : Reports) (p : AggregatedUncachedPopularity) :
    Prop where
  holds : Holds reports p.topk
  bounded : Bounded edgecnt reports
  bitmap_length : p.bitmap.length = edgecnt
  bit : ∀ e, e < edgecnt → p.bitmap[e]? = some (reports e).isSome
  edgecnt_eq : p.existEdgecnt = p.topk.length
  sum_eq : p.sumLocalUncachedPopularity = (p.topk.map Prod.snd).sum

theorem represents_create (key : Key) (edgecnt : Nat) :
    Represents edgecnt (latest []) (create key edgecnt) where
  holds := ⟨List.Pairwise.nil, nodup_nil, by simp [create, latest]⟩
  bounded := by simp [Bounded, latest]
  bitmap_length := by simp [create]
  bit := by simp +contextual [create, latest]
  edgecnt_eq := rfl
  sum_eq := rfl

section Represents

variable {k edgecnt e : Nat} {reports : Reports} {p : AggregatedUncachedPopularity}
  {popularity old : Popularity}

theorem Bounded.update (h : Bounded edgecnt reports) {value : Option Popularity}
    (hvalue : ∀ x, value = some x → e < edgecnt ∧ 0 ≤ x) :
    Bounded edgecnt (Function.update reports e value) := by
  intro e' x hx
  by_cases he : e' = e
  · subst he
    rw [update_self] at hx
    exact hvalue x hx
  · rw [update_of_ne he] at hx
    exact h e' x hx

/-- The bits after the popularity of one edge is set or cleared. -/
theorem Represents.bit_update (h : Represents edgecnt reports p) (value : Option Popularity)
    {e' : Nat} (he' : e' < edgecnt) :
    (p.bitmap.set e value.isSome)[e']? = some (Function.update reports e value e').isSome := by
  by_cases he : e = e'
  · subst he
    rw [getElem?_set_self (by rw [h.bitmap_length]; exact he'), update_self]
  · rw [getElem?_set_ne he, update_of_ne (Ne.symm he), h.bit e' he']

/-- The popularity of an edge is at most the sum. -/
theorem Represents.le_sum (h : Represents edgecnt reports p) (hold : reports e = some old) :
    old ≤ p.sumLocalUncachedPopularity := by
  rw [h.sum_eq]
  refine single_le_sum (fun x hx => ?_) old
    (mem_map_of_mem ((h.holds.mem_iff e old).2 hold))
  obtain ⟨⟨e', x'⟩, hmem, rfl⟩ := mem_map.1 hx
  exact (h.bounded e' x' ((h.holds.mem_iff e' x').1 hmem)).2

/-- The popularity that is taken for an edge is the one it reported. -/
theorem Represents.original_eq (h : Represents edgecnt reports p) (hold : reports e = some old) :
    p.getLocalUncachedPopularityForExistingEdgeIdx e = some old := by
  have hbit : p.bitmap[e]? = some true := by
    rw [h.bit e (h.bounded e old hold).1, hold]
    rfl
  have hget : getTopkListIterForEdgeIdx p.topk e = some old := h.holds.getTopk_eq.trans hold
  simp only [getLocalUncachedPopularityForExistingEdgeIdx, require_bind hbit, hget, Option.pure_def]

/-- Without the pair of an edge the list is shorter by one and sums up to the rest. -/
theorem Represents.erase_spec (h : Represents edgecnt reports p) (hold : reports e = some old) :
    (eraseEdgeIdx p.topk e).length + 1 = p.topk.length ∧
      p.sumLocalUncachedPopularity = old + ((eraseEdgeIdx p.topk e).map Prod.snd).sum := by
  have hperm := perm_eraseEdgeIdx (h.holds.getTopk_eq.trans hold)
  refine ⟨?_, ?_⟩
  · rw [hperm.length_eq, length_cons]
  · rw [h.sum_eq, sum_of_perm hperm]

/-- A list with room takes a new edge. -/
theorem Holds.tryToInsert_eq {topk : List (Nat × Popularity)} (h : Holds reports topk)
    (hroom : topk.length < k) (hnone : reports e = none) :
    tryToInsertForNontopkEdgeIdx topk e popularity k =
      some (insertAscending topk (e, popularity), true) := by
  have hget : getTopkListIterForEdgeIdx topk e = none := h.getTopk_eq.trans hnone
  simp only [tryToInsertForNontopkEdgeIdx, require_bind hget, ge_iff_le,
    if_neg (Nat.not_le.2 hroom), Option.pure_def]

/-- Length and sum of the list after an insertion. -/
theorem insertAscending_spec (topk : List (Nat × Popularity)) (e : Nat) (popularity : Popularity) :
    (insertAscending topk (e, popularity)).length = topk.length + 1 ∧
      ((insertAscending topk (e, popularity)).map Prod.snd).sum =
        popularity + (topk.map Prod.snd).sum :=
  ⟨orderedInsert_length _ _ _, sum_of_perm (perm_orderedInsert _ _ _)⟩

section Represents

variable (h : Represents edgecnt reports p)
include h

/-- A report of an edge that has no popularity. -/
theorem Represents.update_new (hk : edgecnt ≤ k) (he : e < edgecnt) (hnone : reports e = none)
    (hpop : 0 ≤ popularity) (objectSize : Nat) :
    ∃ p', p.update e popularity k objectSize = some p' ∧
      Represents edgecnt (Function.update reports e (some popularity)) p' := by
  have hbit : p.bitmap[e]? = some false := by
    rw [h.bit e he, hnone]
    rfl
  have hroom : p.topk.length < k :=
    (h.holds.length_lt (fun e' x hx => (h.bounded e' x hx).1) he hnone).trans_le hk
  have hinsert : tryToInsertForNontopkEdgeIdx p.topk e popularity k =
      some (insertAscending p.topk (e, popularity), true) := h.holds.tryToInsert_eq hroom hnone
  obtain ⟨hlength, hsum⟩ := insertAscending_spec p.topk e popularity
  simp only [update, hbit, some_bind, if_true, hinsert]
  refine ⟨_, rfl, h.holds.insert hnone popularity, h.bounded.update ?_, ?_, ?_, ?_, ?_⟩
  · rintro x ⟨⟩
    exact ⟨he, hpop⟩
  · simp only [length_set]
    exact h.bitmap_length
  · exact fun e' he' => h.bit_update (some popularity) he'
  · rw [hlength, h.edgecnt_eq]
  · rw [hsum, h.sum_eq, add_comm]

/-- A report of an edge that has a popularity, which is replaced. -/
theorem Represents.update_existing (hk : edgecnt ≤ k) (hold : reports e = some old)
    (hpop : 0 ≤ popularity) (objectSize : Nat) :
    ∃ p', p.update e popularity k objectSize = some p' ∧
      Represents edgecnt (Function.update reports e (some popularity)) p' := by
  have he : e < edgecnt := (h.bounded e old hold).1
  have hbit : p.bitmap[e]? = some true := by
    rw [h.bit e he, hold]
    rfl
  have herased : Holds (Function.update reports e none) (eraseEdgeIdx p.topk e) := h.holds.erase e
  have hnone : Function.update reports e none e = none := update_self ..
  have hunset : Bounded edgecnt (Function.update reports e none) := h.bounded.update (by simp)
  obtain ⟨hshorter, hrest⟩ := h.erase_spec hold
  have hroom : (eraseEdgeIdx p.topk e).length < k :=
    (herased.length_lt (fun e' x hx => (hunset e' x hx).1) he hnone).trans_le hk
  have hinsert : tryToInsertForNontopkEdgeIdx (eraseEdgeIdx p.topk e) e popularity k =
      some (insertAscending (eraseEdgeIdx p.topk e) (e, popularity), true) :=
    herased.tryToInsert_eq hroom hnone
  have htopk : updateTopkForExistingEdgeIdx p.topk e popularity k =
      some (insertAscending (eraseEdgeIdx p.topk e) (e, popularity)) := by
    simp [updateTopkForExistingEdgeIdx, hinsert, require]
  obtain ⟨hlength, hsum⟩ := insertAscending_spec (eraseEdgeIdx p.topk e) e popularity
  have hle : old ≤ p.sumLocalUncachedPopularity + popularity := by
    linarith [h.le_sum hold]
  simp only [update, hbit, some_bind, Bool.true_eq_false, if_false, h.original_eq hold, htopk]
  refine ⟨_, rfl, ?_, h.bounded.update ?_, h.bitmap_length, ?_, ?_, ?_⟩
  · have hinserted := herased.insert hnone popularity
    rwa [update_idem] at hinserted
  · rintro x ⟨⟩
    exact ⟨he, hpop⟩
  · -- the bit of the edge is set already
    intro e' he'
    have hset := h.bit_update (some popularity) (e := e) he'
    rwa [isSome_some, set_eq_self_of_getElem? hbit] at hset
  · rw [hlength, hshorter, h.edgecnt_eq]
  · rw [minus_eq hle, hsum, hrest]
    ring

/-- A report keeps the representation. -/
theorem Represents.update (hk : edgecnt ≤ k) (he : e < edgecnt) (hpop : 0 ≤ popularity)
    (objectSize : Nat) :
    ∃ p', p.update e popularity k objectSize = some p' ∧
      Represents edgecnt (Function.update reports e (some popularity)) p' := by
  cases hreport : reports e with
  | none => exact h.update_new hk he hreport hpop objectSize
  | some old => exact h.update_existing hk hreport hpop objectSize

/-- Forgetting an edge keeps the representation. -/
theorem Represents.clear (he : e < edgecnt) :
    ∃ p' out, p.clear e = some (p', out) ∧
      Represents edgecnt (Function.update reports e none) p' := by
  have hbit := h.bit e he
  cases hreport : reports e with
  | none =>
    rw [hreport, isSome_none] at hbit
    have hsame : Function.update reports e none = reports := by
      rw [← hreport, update_eq_self]
    rw [hsame]
    simp only [AggregatedUncachedPopularity.clear, hbit, some_bind, Bool.false_eq_true, if_false]
    exact ⟨p, _, rfl, h⟩
  | some old =>
    rw [hreport, isSome_some] at hbit
    obtain ⟨hshorter, hrest⟩ := h.erase_spec hreport
    have hcount : p.existEdgecnt ≥ 1 := by
      rw [h.edgecnt_eq]
      omega
    simp only [AggregatedUncachedPopularity.clear, hbit, some_bind, if_true, h.original_eq hreport,
      require_bind hcount]
    refine ⟨_, _, rfl, h.holds.erase e, h.bounded.update (by simp), ?_, ?_, ?_, ?_⟩
    · simp only [length_set]
      exact h.bitmap_length
    · exact fun e' he' => h.bit_update none he'
    · rw [h.edgecnt_eq]
      exact Nat.sub_eq_of_eq_add hshorter.symm
    · rw [minus_eq (h.le_sum hreport), hrest]
      ring

/-- Forgetting the edges of a placement one after the other keeps the representation. -/
theorem Represents.clearForPlacement {edges : Edgeset} (hedges : ∀ e ∈ edges, e < edgecnt) :
    ∃ p' out, p.clearForPlacement edges = some (p', out) ∧
      Represents edgecnt (fun e => if e ∈ edges then none else reports e) p' := by
  induction edges generalizing p reports with
  | nil => exact ⟨p, _, rfl, by simpa using h⟩
  | cons first rest ih =>
    obtain ⟨p₁, out₁, hclear, h₁⟩ := h.clear (hedges first List.mem_cons_self)
    obtain ⟨p', out, hrest, h'⟩ := ih h₁ fun e he => hedges e (mem_cons_of_mem first he)
    refine ⟨p', out, ?_, ?_⟩
    · rw [AggregatedUncachedPopularity.clearForPlacement, hclear]
      exact hrest
    · have hsame : (fun e => if e ∈ rest then none else Function.update reports first none e) =
          fun e => if e ∈ first :: rest then none else reports e := by
        funext e
        by_cases he : e = first
        · simp [he]
        · simp [he]
      rwa [hsame] at h'

end Represents

end Represents

/-! ## Any mix of operations -/

variable {p : AggregatedUncachedPopularity}

/-- One valid operation does not abort and keeps the representation. -/
theorem represents_step {k edgecnt : Nat} (hk : edgecnt ≤ k) {reports : Reports}
    (h : Represents edgecnt reports p) {op : Operation} (hop : op.Valid edgecnt) :
    ∃ p', step k p op = some (p', ()) ∧ Represents edgecnt (op.apply reports) p' := by
  cases op with
  | update source popularity objectSize =>
    obtain ⟨p', hp', hrep⟩ := h.update hk hop.1 hop.2 objectSize
    exact ⟨p', by rw [step, hp']; rfl, hrep⟩
  | clear source =>
    obtain ⟨p', out, hp', hrep⟩ := h.clear hop
    exact ⟨p', by rw [step, hp']; rfl, hrep⟩
  | clearForPlacement edges =>
    obtain ⟨p', out, hp', hrep⟩ := h.clearForPlacement hop
    exact ⟨p', by rw [step, hp']; rfl, hrep⟩

/-- After every run the popularity stands for the latest reports. -/
theorem represents_of_runs {k edgecnt : Nat} (hk : edgecnt ≤ k) {key : Key}
    {tr : List (Operation × Unit)}
    (h : Runs (step k) (fun _ op => op.Valid edgecnt) (create key edgecnt) tr p) :
    Represents edgecnt (latest tr) p := by
  refine h.trace_invariant (P := fun tr p => Represents edgecnt (latest tr) p)
    (represents_create key edgecnt) ?_
  intro tr p op p' out hrep hop hstep
  obtain ⟨p'', hp'', hrep'⟩ := represents_step hk hrep hop
  rw [hp''] at hstep
  cases hstep
  exact hrep'

/-! ## The most popular edges -/

section MostPopular

variable {edgecnt topicnt : Nat} {reports : Reports} {p : AggregatedUncachedPopularity}

/-- The last edges of the list are most popular. -/
theorem Represents.topmost_drop (h : Represents edgecnt reports p) (n : Nat) :
    Topmost (popularityOf reports) (existing edgecnt reports)
      ((p.topk.drop n).map Prod.fst).toFinset := by
  have hsorted : Ascending (popularityOf reports) (p.topk.map Prod.fst) := by
    refine pairwise_map.2 (h.holds.sorted.imp_of_mem ?_)
    rintro ⟨e, x⟩ ⟨e', x'⟩ hmem hmem' hle
    rw [popularityOf, popularityOf, (h.holds.mem_iff e x).1 hmem,
      (h.holds.mem_iff e' x').1 hmem']
    exact hle
  have hdrop := Covered.Lib.topmost_drop hsorted n
  rwa [h.holds.toFinset_eq fun e x hx => (h.bounded e x hx).1, ← map_drop] at hdrop

/-- The benefit of the list's last edges is that of any most popular edges of this number. -/
theorem Represents.calcAdmissionBenefit_eq (h : Represents edgecnt reports p)
    (htopi : topicnt ≤ p.topk.length)
    (calcLocalUncachedReward : Popularity → Bool → Popularity → DeltaReward)
    (isGlobalCached : Bool) {S : Finset Nat}
    (hS : Topmost (popularityOf reports) (existing edgecnt reports) S)
    (hcard : S.card = topicnt) :
    p.calcAdmissionBenefit .exact calcLocalUncachedReward topicnt isGlobalCached =
      some (calcLocalUncachedReward (∑ e ∈ S, popularityOf reports e) isGlobalCached
          ((∑ e ∈ Finset.range edgecnt, popularityOf reports e) -
            ∑ e ∈ S, popularityOf reports e),
        (p.topk.drop (p.topk.length - topicnt)).map Prod.fst) := by
  have hsub : (p.topk.drop (p.topk.length - topicnt)).Sublist p.topk := drop_sublist _ _
  have hnodup := h.holds.distinct.sublist (hsub.map Prod.fst)
  -- both subsets are topmost and of the same size
  have htopi_sum : ((p.topk.drop (p.topk.length - topicnt)).map Prod.snd).sum =
      ∑ e ∈ S, popularityOf reports e := by
    rw [h.holds.sum_sublist hsub]
    apply (h.topmost_drop _).sum_eq hS
    rw [toFinset_card_of_nodup hnodup, length_map, length_drop, hcard]
    omega
  have hsum : p.sumLocalUncachedPopularity =
      ∑ e ∈ Finset.range edgecnt, popularityOf reports e := by
    rw [h.sum_eq, h.holds.sum_eq fun e x hx => (h.bounded e x hx).1]
  have hle : ∑ e ∈ S, popularityOf reports e ≤
      ∑ e ∈ Finset.range edgecnt, popularityOf reports e := by
    apply Finset.sum_le_sum_of_subset_of_nonneg
    · exact hS.subset.trans (Finset.filter_subset _ _)
    · intro e _ _
      cases hx : reports e with
      | none => simp [popularityOf, hx]
      | some x => simpa [popularityOf, hx] using (h.bounded e x hx).2
  simp only [calcAdmissionBenefit, getTopiLocalUncachedPopularitySum, require_bind htopi,
    Option.pure_def, some_bind, Lib.Rounding.exact_sum, htopi_sum, hsum,
    require_bind (isApproxLargerEqual_of_le hle), popularityNonegMinus_exact hle]

end MostPopular

/-- After any sequence of valid operations, if the top-k count is at least the number of edges: the
sum is that of the latest reports; the list holds exactly the latest reports, in ascending order and
one for each existing edge; the bits and the number of edges are those of the existing edges; and
the admission benefit of `topicnt` edges, for every number of existing edges, is the one computed
from any `topicnt` most popular edges, and is proposed for such edges. No valid operation aborts. -/
theorem aggregation_exact {k edgecnt : Nat} (hk : edgecnt ≤ k) (key : Key)
    {tr : List (Operation × Unit)} {p : AggregatedUncachedPopularity}
    (h : Runs (step k) (fun _ op => op.Valid edgecnt) (create key edgecnt) tr p) :
    p.sumLocalUncachedPopularity =
      ∑ e ∈ Finset.range edgecnt, popularityOf (latest tr) e ∧
    Holds (latest tr) p.topk ∧
    (∀ e, e < edgecnt → p.hasLocalUncachedPopularity e = some (latest tr e).isSome) ∧
    p.existEdgecnt = (existing edgecnt (latest tr)).card ∧
    (∀ calcLocalUncachedReward topicnt isGlobalCached,
      topicnt ≤ (existing edgecnt (latest tr)).card →
      ∃ edges : Edgeset, edges.Nodup ∧ edges.length = topicnt ∧
        Topmost (popularityOf (latest tr)) (existing edgecnt (latest tr)) edges.toFinset ∧
        ∀ S : Finset Nat,
          Topmost (popularityOf (latest tr)) (existing edgecnt (latest tr)) S →
          S.card = topicnt →
          p.calcAdmissionBenefit .exact calcLocalUncachedReward topicnt isGlobalCached =
            some (calcLocalUncachedReward (∑ e ∈ S, popularityOf (latest tr) e) isGlobalCached
                ((∑ e ∈ Finset.range edgecnt, popularityOf (latest tr) e) -
                  ∑ e ∈ S, popularityOf (latest tr) e), edges)) ∧
    ∀ op : Operation, op.Valid edgecnt → step k p op ≠ none := by
  have hrep := represents_of_runs hk h
  have hcard : p.topk.length = (existing edgecnt (latest tr)).card := by
    rw [← hrep.holds.toFinset_eq fun e x hx => (hrep.bounded e x hx).1,
      List.toFinset_card_of_nodup hrep.holds.distinct, List.length_map]
  refine ⟨?_, hrep.holds, hrep.bit, hrep.edgecnt_eq.trans hcard, ?_, ?_⟩
  · rw [hrep.sum_eq, hrep.holds.sum_eq fun e x hx => (hrep.bounded e x hx).1]
  · intro calcLocalUncachedReward topicnt isGlobalCached htopi
    rw [← hcard] at htopi
    refine ⟨(p.topk.drop (p.topk.length - topicnt)).map Prod.fst, ?_, ?_, hrep.topmost_drop _, ?_⟩
    · exact hrep.holds.distinct.sublist ((List.drop_sublist _ _).map Prod.fst)
    · rw [List.length_map, List.length_drop]
      omega
    · intro S hS hSize
      exact hrep.calcAdmissionBenefit_eq htopi calcLocalUncachedReward isGlobalCached hS hSize
  · intro op hop hnone
    obtain ⟨p', hp', -⟩ := represents_step hk hrep hop
    rw [hp'] at hnone
    cases hnone

/-- Three edges report, one of them twice, and one is placed: the later report of the edge that
reported twice is in the list. -/
theorem aggregation_exact_twice :
    ∃ tr p, Runs (step 3) (fun _ op => op.Valid 3) (create ⟨[7]⟩ 3) tr p ∧
      p.topk = [(2, 5), (0, 8)] ∧
      p.sumLocalUncachedPopularity = ∑ e ∈ Finset.range 3, popularityOf (latest tr) e := by
  have hexec : (exec (step 3) (fun _ op => op.Valid 3) (create ⟨[7]⟩ 3)
      [.update 0 4 10, .update 1 6 10, .update 2 5 10, .update 0 8 10,
        .clearForPlacement [1]]).any (fun p => decide (p.topk = [(2, 5), (0, 8)])) = true := by
    decide +kernel
  obtain ⟨tr, p, hrun, -, hp⟩ := exists_runs_of_any hexec
  exact ⟨tr, p, hrun, of_decide_eq_true hp, (aggregation_exact (le_refl 3) ⟨[7]⟩ hrun).1⟩

end Covered.Popularity.AggregatedUncachedPopularity
