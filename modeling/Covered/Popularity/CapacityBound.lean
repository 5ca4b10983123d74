import Covered.Lib.ShortestPrefix
import Covered.Popularity.Bookkeeping

/-!
# The capacity bound of the popularity aggregator

A report that is taken into account and a placement end with `discardGlobalLessPopularObjects`. It
drops the entries with the smallest maximum admission benefit until the byte count is within the
capacity. The byte count includes the preserved edgesets, which are never dropped. A placement may
add a preserved edgeset for a key whose popularity has been discarded in the meantime, so nothing
keeps the preserved edgesets below the capacity.

`beforeDiscard` is the state in which an operation discards. In every such state of every run the
discard succeeds iff the preserved edgesets alone fit into the capacity
(`discard_within_capacity_iff`); it then drops the shortest prefix of the ascending multimap that is
large enough. Otherwise the loop runs out of entries, and its assertion fails.
-/

set_option autoImplicit false

namespace Covered.Popularity.PopularityAggregator

open Common Lib Lib.Checked Lib.Execution Lib.SortBy

/-! ## The states in which an operation discards -/

/-- The state in which an operation discards, if it gets so far. -/
def beforeDiscard (a : PopularityAggregator) : Operation → Option PopularityAggregator
  | .updateAggregatedUncachedPopularity calcReward key source collected isGlobal isSource => do
      let isPreserved ← a.isPreservedEdge key source
      -- what is not taken into account can only release bytes, and nothing is discarded
      require (collected.isTracked && !isSource && !isPreserved)
      if a.perkeyBenefitPopularityTable.lookup key = none then
        a.addAggregatedUncachedPopularityForNewKey calcReward key source
          collected.localUncachedPopularity collected.objectSize isGlobal
      else do
        let updated ← a.updateAggregatedUncachedPopularityForExistingKey calcReward key source true
          collected.localUncachedPopularity collected.objectSize isGlobal
        return updated.1
  | .updatePreservedEdgesetForPlacement calcReward key edges isGlobal => do
      let (set, sizeBytes) ← a.getOrCreatePreservedEdgeset key
      let set' ← set.preserveEdgesetForPlacement edges
      clearPopularityForPlacement
        { a with
          sizeBytes := sizeBytes
          perkeyPreservedEdgeset := a.perkeyPreservedEdgeset.insert key set' }
        calcReward key edges isGlobal
  | .clearPreservedEdgesetAfterAdmission _ _ => none
  | .discardGlobalLessPopularObjects => some a

section BeforeDiscard

variable {last : Key → Option (CalcReward × Bool)} {a a₁ : PopularityAggregator} {op : Operation}

/-- The popularity of a tracked source is always taken into account. -/
theorem updateAggregatedUncachedPopularityForExistingKey_tracked {calcReward : CalcReward}
    {key : Key} {source objectSize : Nat} {popularity : Popularity} {isGlobal : Bool}
    {updated : PopularityAggregator × Bool}
    (h : a.updateAggregatedUncachedPopularityForExistingKey calcReward key source true popularity
      objectSize isGlobal = some updated) : updated.2 = true := by
  simp only [updateAggregatedUncachedPopularityForExistingKey, if_true, bind_eq_some_iff] at h
  obtain ⟨found, -, existing, -, p, -, a', -, heq⟩ := h
  cases heq
  rfl

/-- An operation that gets to its discard ends with it. -/
theorem step_of_beforeDiscard (h : a.beforeDiscard op = some a₁) :
    step a op = a₁.discardGlobalLessPopularObjects.map fun a' => (a', none) := by
  cases op with
  | updateAggregatedUncachedPopularity calcReward key source collected isGlobal isSource =>
    simp only [beforeDiscard, Option.bind_eq_bind, Option.bind_eq_some_iff,
      require_eq_some_iff] at h
    obtain ⟨isPreserved, hpreserved, -, htracked, h⟩ := h
    -- a report that is taken into account needs no hint
    have hhint : (!(collected.isTracked && !isSource) && !isSource && !isPreserved) = false := by
      rw [Bool.and_eq_true] at htracked
      rw [htracked.1]
      rfl
    simp only [step, updateAggregatedUncachedPopularity, hpreserved, aggregate, htracked, hhint,
      some_bind, if_true, Bool.false_and, Bool.false_eq_true, if_false]
    split at h
    · next hnew =>
      rw [if_pos hnew, h]
      cases hdiscard : a₁.discardGlobalLessPopularObjects with
      | none => simp [hdiscard]
      | some a' => simp [hdiscard]
    · next hexisting =>
      rw [Option.bind_eq_some_iff] at h
      obtain ⟨⟨a₂, isSuccessful⟩, hupdate, heq⟩ := h
      have hsuccessful : isSuccessful = true :=
        updateAggregatedUncachedPopularityForExistingKey_tracked hupdate
      cases heq
      subst hsuccessful
      rw [if_neg hexisting, hupdate]
      cases hdiscard : a₂.discardGlobalLessPopularObjects with
      | none => simp [hdiscard, require]
      | some a' => simp [hdiscard, require]
  | updatePreservedEdgesetForPlacement calcReward key edges isGlobal =>
    simp only [beforeDiscard, bind_eq_some_iff] at h
    obtain ⟨⟨set, sizeBytes⟩, hget, set', hpreserve, hclear⟩ := h
    simp only [step, updatePreservedEdgesetForPlacement, hget, hpreserve, some_bind, hclear]
  | clearPreservedEdgesetAfterAdmission key source => cases h
  | discardGlobalLessPopularObjects =>
    cases h
    rfl

/-- The books are exact when an operation discards. -/
theorem Booked.beforeDiscard (h : Booked last a) (hbefore : a.beforeDiscard op = some a₁) :
    ∃ last', Booked last' a₁ := by
  cases op with
  | updateAggregatedUncachedPopularity calcReward key source collected isGlobal isSource =>
    obtain ⟨hlast, hother⟩ := update_weighting last key (calcReward, isGlobal)
    simp only [PopularityAggregator.beforeDiscard, Option.bind_eq_bind,
      Option.bind_eq_some_iff] at hbefore
    obtain ⟨isPreserved, -, -, -, hbefore⟩ := hbefore
    split at hbefore
    · exact ⟨_, booked_addAggregatedUncachedPopularityForNewKey h hlast hother hbefore⟩
    · rw [Option.bind_eq_some_iff] at hbefore
      obtain ⟨⟨a₂, isSuccessful⟩, hupdate, heq⟩ := hbefore
      cases heq
      exact ⟨_, booked_updateAggregatedUncachedPopularityForExistingKey h hlast hother hupdate⟩
  | updatePreservedEdgesetForPlacement calcReward key edges isGlobal =>
    obtain ⟨hlast, hother⟩ := update_weighting last key (calcReward, isGlobal)
    simp only [PopularityAggregator.beforeDiscard, bind_eq_some_iff] at hbefore
    obtain ⟨⟨set, sizeBytes⟩, hget, set', hpreserve, hclear⟩ := hbefore
    exact ⟨_, booked_clearPopularityForPlacement (h.preserve hget hpreserve) hlast hother hclear⟩
  | clearPreservedEdgesetAfterAdmission key source => cases hbefore
  | discardGlobalLessPopularObjects =>
    cases hbefore
    exact ⟨last, h⟩

end BeforeDiscard

/-! ## What is discarded -/

/-- The bytes that the discard of an entry releases. -/
def discardedBytes (entry : BenefitPopularity) : Nat :=
  entryBytes entry + (entry.popularity.key.getKeyLength + sizeofIterator)

/-- From `a` to `a'` the least beneficial entries are discarded, as many as the bound requires. -/
structure DiscardsLeast (a a' : PopularityAggregator) : Prop where
  ascending : Ascending (fun entry : BenefitPopularity => entry.maxAdmissionBenefit)
    a.benefitPopularityMultimap
  within : a'.sizeBytes ≤ a.popularityAggregationCapacityBytes
  discarded : a.benefitPopularityMultimap =
    shortestPrefix discardedBytes (a.sizeBytes - a.popularityAggregationCapacityBytes)
      a.benefitPopularityMultimap ++ a'.benefitPopularityMultimap
  table : ∀ key, a'.perkeyBenefitPopularityTable.lookup key =
    if ∃ entry ∈ shortestPrefix discardedBytes
        (a.sizeBytes - a.popularityAggregationCapacityBytes) a.benefitPopularityMultimap,
      entry.popularity.key = key then none else a.perkeyBenefitPopularityTable.lookup key
  preserved : a'.perkeyPreservedEdgeset = a.perkeyPreservedEdgeset
  unchanged : a.sizeBytes ≤ a.popularityAggregationCapacityBytes → a' = a

section DiscardLoop

variable {last : Key → Option (CalcReward × Bool)} {capacityBytes sizeBytes sizeBytes' nextId
  rest : Nat} {multimap multimap' : List BenefitPopularity} {table table' : UnorderedMap Key Nat}

theorem discardLoop_of_le (h : sizeBytes ≤ capacityBytes) :
    discardLoop capacityBytes multimap table sizeBytes = some (multimap, table, sizeBytes) := by
  cases multimap with
  | nil => rw [discardLoop, if_pos h]
  | cons entry others => rw [discardLoop, if_pos h]

/-- The loop ends within the capacity only. -/
theorem sizeBytes_le_of_discardLoop
    (h : discardLoop capacityBytes multimap table sizeBytes =
      some (multimap', table', sizeBytes')) : sizeBytes' ≤ capacityBytes := by
  induction multimap generalizing table sizeBytes with
  | nil =>
    rw [discardLoop] at h
    split at h
    · next hle =>
      cases h
      exact hle
    · cases h
  | cons entry others ih =>
    rw [discardLoop] at h
    split at h
    · next hle =>
      cases h
      exact hle
    · rw [require_bind_iff] at h
      exact ih h.2

/-- With an empty multimap the table is empty. -/
theorem tableBytes_of_linked_nil (hlinked : Linked last [] table nextId) :
    tableBytes table = 0 := by
  have hentries : table.entries = [] := by
    by_contra hne
    obtain ⟨key, id, hid⟩ := UnorderedMap.exists_lookup_of_entries_ne_nil table hne
    obtain ⟨entry, hentry, -⟩ := hlinked.denotes key id hid
    cases hentry
  rw [tableBytes, UnorderedMap.sumBy, hentries]
  rfl

/-- If what is not in the multimap fits into the capacity, the loop drops the shortest prefix of the
multimap that suffices. -/
theorem exists_discardLoop (hlinked : Linked last multimap table nextId)
    (hbytes : sizeBytes = multimapBytes multimap + tableBytes table + rest)
    (hrest : rest ≤ capacityBytes) :
    ∃ multimap' table' sizeBytes',
      discardLoop capacityBytes multimap table sizeBytes = some (multimap', table', sizeBytes') ∧
      multimap = shortestPrefix discardedBytes (sizeBytes - capacityBytes) multimap ++ multimap' ∧
      ∀ key, table'.lookup key =
        if ∃ entry ∈ shortestPrefix discardedBytes (sizeBytes - capacityBytes) multimap,
          entry.popularity.key = key then none else table.lookup key := by
  induction multimap generalizing table sizeBytes with
  | nil =>
    -- only what cannot be discarded is left
    have hle : sizeBytes ≤ capacityBytes := by
      rw [hbytes, tableBytes_of_linked_nil hlinked]
      simpa [multimapBytes] using hrest
    refine ⟨[], table, sizeBytes, discardLoop_of_le hle, rfl, fun key => ?_⟩
    rw [shortestPrefix_nil, if_neg]
    rintro ⟨entry, hentry, -⟩
    cases hentry
  | cons entry others ih =>
    by_cases hle : sizeBytes ≤ capacityBytes
    · refine ⟨entry :: others, table, sizeBytes, discardLoop_of_le hle, ?_, fun key => ?_⟩
      · rw [Nat.sub_eq_zero_of_le hle, shortestPrefix_zero, List.nil_append]
      · rw [Nat.sub_eq_zero_of_le hle, shortestPrefix_zero, if_neg]
        rintro ⟨entry', hentry', -⟩
        cases hentry'
    · have hindexed := hlinked.indexed entry List.mem_cons_self
      have herase := tableBytes_erase hindexed
      have hremoved : Linked last others (table.erase entry.popularity.key) nextId :=
        hlinked.remove _ (List.Perm.refl _) (List.sublist_cons_self entry others)
          fun key => UnorderedMap.lookup_erase_eq _ _ _
      rw [multimapBytes_of_perm (List.Perm.refl _)] at hbytes
      have hsize : sizeBytes - sizeofDeltaReward - entry.popularity.getSizeForCapacity -
          entry.popularity.key.getKeyLength - sizeofIterator =
          sizeBytes - discardedBytes entry := by
        rw [discardedBytes, entryBytes]
        omega
      have hrestBytes : sizeBytes - discardedBytes entry = multimapBytes others +
          tableBytes (table.erase entry.popularity.key) + rest := by
        rw [discardedBytes]
        omega
      obtain ⟨multimap', table', sizeBytes', hloop, hprefix, hlookup⟩ := ih hremoved hrestBytes
      have hcons : shortestPrefix discardedBytes (sizeBytes - capacityBytes) (entry :: others) =
          entry :: shortestPrefix discardedBytes
            (sizeBytes - discardedBytes entry - capacityBytes) others := by
        rw [shortestPrefix_cons entry (by omega), Nat.sub_right_comm]
      refine ⟨multimap', table', sizeBytes', ?_, ?_, fun key => ?_⟩
      · rw [discardLoop, if_neg hle, hindexed, hsize]
        exact hloop
      · rw [hcons, List.cons_append, ← hprefix]
      · rw [hcons, hlookup key, UnorderedMap.lookup_erase_eq]
        by_cases hkey : key = entry.popularity.key
        · rw [if_pos hkey, ite_self, if_pos ⟨entry, List.mem_cons_self, hkey.symm⟩]
        · simp only [if_neg hkey, List.mem_cons, exists_eq_or_imp, Ne.symm hkey, false_or]

end DiscardLoop

/-! ## The bound -/

section Bound

variable {last : Key → Option (CalcReward × Bool)} {a a' : PopularityAggregator}

/-- The discard fails iff the preserved edgesets alone exceed the capacity. -/
theorem discardGlobalLessPopularObjects_iff (h : Booked last a) :
    (∃ a', a.discardGlobalLessPopularObjects = some a') ↔
      preservedBytes a.perkeyPreservedEdgeset ≤ a.popularityAggregationCapacityBytes := by
  constructor
  · rintro ⟨a', ha'⟩
    simp only [discardGlobalLessPopularObjects, bind_eq_some_iff] at ha'
    obtain ⟨⟨multimap, table, sizeBytes⟩, hloop, -⟩ := ha'
    have hle := sizeBytes_le_of_discardLoop hloop
    have hbytes := (linked_discardLoop h.linked h.bytes hloop).2
    omega
  · intro hpreserved
    obtain ⟨multimap, table, sizeBytes, hloop, -⟩ := exists_discardLoop h.linked h.bytes hpreserved
    rw [discardGlobalLessPopularObjects, hloop]
    exact ⟨_, rfl⟩

/-- A discard that succeeds drops the least beneficial entries, no more than necessary. -/
theorem discardsLeast_of_discard (h : Booked last a)
    (hdiscard : a.discardGlobalLessPopularObjects = some a') : DiscardsLeast a a' := by
  have hpreserved := (discardGlobalLessPopularObjects_iff h).1 ⟨a', hdiscard⟩
  obtain ⟨multimap, table, sizeBytes, hloop, hprefix, hlookup⟩ :=
    exists_discardLoop h.linked h.bytes hpreserved
  rw [discardGlobalLessPopularObjects, hloop] at hdiscard
  cases hdiscard
  refine ⟨h.linked.ordered, sizeBytes_le_of_discardLoop hloop, hprefix, hlookup, rfl, fun hle => ?_⟩
  rw [discardLoop_of_le hle] at hloop
  cases hloop
  rfl

end Bound

/-- In every run and for every operation that gets to its discard: the discard ends within the
capacity and has dropped the least beneficial entries, as many as the capacity requires, iff the
preserved edgesets alone fit into the capacity. -/
theorem discard_within_capacity_iff {edgecnt capacityBytes topkEdgecnt : Nat}
    {tr : List (Operation × Option FastPathHint)} {a a₁ : PopularityAggregator} {op : Operation}
    (h : Runs step anyAction (create edgecnt capacityBytes topkEdgecnt) tr a)
    (hbefore : a.beforeDiscard op = some a₁) :
    (∃ a', a₁.discardGlobalLessPopularObjects = some a' ∧ DiscardsLeast a₁ a') ↔
      preservedBytes a₁.perkeyPreservedEdgeset ≤ a₁.popularityAggregationCapacityBytes := by
  obtain ⟨last', hbooked₁⟩ := (booked_of_runs h).beforeDiscard hbefore
  rw [← discardGlobalLessPopularObjects_iff hbooked₁]
  constructor
  · rintro ⟨a', hdiscard, -⟩
    exact ⟨a', hdiscard⟩
  · rintro ⟨a', hdiscard⟩
    exact ⟨a', hdiscard, discardsLeast_of_discard hbooked₁ hdiscard⟩

/-- A key of 16 bytes is placed after its popularity gave way to that of another key: the entry of
the other key is discarded for the preserved edgeset, and no more. -/
theorem discard_within_capacity_iff_evicted :
    ∃ tr a a₁, Runs step anyAction (create 2 70 1) tr a ∧
      a.beforeDiscard (.updatePreservedEdgesetForPlacement (fun p _ q => p + q)
        ⟨List.replicate 16 1⟩ [0] false) = some a₁ ∧
      (∃ a', a₁.discardGlobalLessPopularObjects = some a' ∧ DiscardsLeast a₁ a') ∧
      a₁.benefitPopularityMultimap.length = 1 ∧ 70 < a₁.sizeBytes := by
  have hexec : (exec step anyAction (create 2 70 1)
      [.updateAggregatedUncachedPopularity (fun p _ q => p + q) ⟨List.replicate 16 1⟩ 0
          ⟨true, 4, 10⟩ false false,
        .updateAggregatedUncachedPopularity (fun p _ q => p + q) ⟨List.replicate 16 2⟩ 0
          ⟨true, 6, 10⟩ false false]).any
      (fun a => (a.beforeDiscard (.updatePreservedEdgesetForPlacement (fun p _ q => p + q)
        ⟨List.replicate 16 1⟩ [0] false)).any fun a₁ =>
          decide (preservedBytes a₁.perkeyPreservedEdgeset ≤
            a₁.popularityAggregationCapacityBytes) &&
          decide (a₁.benefitPopularityMultimap.length = 1) && decide (70 < a₁.sizeBytes)) =
      true := by
    decide +kernel
  obtain ⟨tr, a, hrun, -, ha⟩ := exists_runs_of_any hexec
  obtain ⟨a₁, hbefore, ha₁⟩ := (Option.any_eq_true _ _).1 ha
  simp only [Bool.and_eq_true, decide_eq_true_eq] at ha₁
  exact ⟨tr, a, a₁, hrun, hbefore, (discard_within_capacity_iff hrun hbefore).2 ha₁.1.1, ha₁.1.2,
    ha₁.2⟩

/-- Five keys of 16 bytes are reported one after the other, each in place of the one before, and
then placed: the preserved edgesets take 85 bytes of a capacity of 70, and the loop runs out of
entries. -/
theorem preserved_edgesets_exceed_capacity :
    ∃ tr a a₁, Runs step anyAction (create 2 70 1) tr a ∧
      a.beforeDiscard (.updatePreservedEdgesetForPlacement (fun p _ q => p + q)
        ⟨List.replicate 16 5⟩ [0] false) = some a₁ ∧
      a₁.discardGlobalLessPopularObjects = none ∧
      step a (.updatePreservedEdgesetForPlacement (fun p _ q => p + q)
        ⟨List.replicate 16 5⟩ [0] false) = none := by
  have hexec : (exec step anyAction (create 2 70 1)
      (([1, 2, 3, 4, 5].map fun byte => .updateAggregatedUncachedPopularity (fun p _ q => p + q)
          ⟨List.replicate 16 byte⟩ 0 ⟨true, 4, 10⟩ false false) ++
        [1, 2, 3, 4].map fun byte => .updatePreservedEdgesetForPlacement (fun p _ q => p + q)
          ⟨List.replicate 16 byte⟩ [0] false)).any
      (fun a => (a.beforeDiscard (.updatePreservedEdgesetForPlacement (fun p _ q => p + q)
        ⟨List.replicate 16 5⟩ [0] false)).any fun a₁ =>
          a₁.discardGlobalLessPopularObjects.isNone) = true := by
    decide +kernel
  obtain ⟨tr, a, hrun, -, ha⟩ := exists_runs_of_any hexec
  obtain ⟨a₁, hbefore, ha₁⟩ := (Option.any_eq_true _ _).1 ha
  have hnone : a₁.discardGlobalLessPopularObjects = none := Option.isNone_iff_eq_none.1 ha₁
  refine ⟨tr, a, a₁, hrun, hbefore, hnone, ?_⟩
  rw [step_of_beforeDiscard hbefore, hnone]
  rfl

end Covered.Popularity.PopularityAggregator
