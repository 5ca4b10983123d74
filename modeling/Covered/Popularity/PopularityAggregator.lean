import Covered.Lib.UnorderedMap
import Covered.Popularity.AggregatedUncachedPopularity

/-!
# The popularity aggregator

A beacon keeps the aggregated uncached popularities of its keys in a multimap ordered by their
maximum admission benefit, with a table from keys to iterators into it, and for each key that is
being placed the edges preserved for it. The multimap is a list of entries with identifiers; an
iterator is the identifier of an entry. The least beneficial entries are discarded when the byte
count exceeds the capacity; preserved edges are not.

`no_duplicate_placement` is the safety of non-blocking placement: as long as an edge is preserved
for a key it has no existence bit in the popularity of the key, so no top-k list can choose it
again.

The weighting of popularities may change over time, so it is an argument of each operation. The byte
count is a natural number; the source's checked subtraction clamps to zero as subtraction here does.
-/

set_option autoImplicit false

namespace Covered.Popularity

open Common Lib Lib.Checked Lib.Execution UnorderedMap AggregatedUncachedPopularity

/-! ## Preserved edgesets -/

/-- The edges preserved for the placement of a key; there is at least one edge. -/
structure PreservedEdgeset where
  preservedBitmap : List Bool
  nonempty : 0 < preservedBitmap.length

namespace PreservedEdgeset

/-- No preserved edge among `edgecnt` edges. -/
def create (edgecnt : Nat) : Option PreservedEdgeset :=
  if h : 0 < edgecnt then
    some ⟨List.replicate edgecnt false, by rw [List.length_replicate]; exact h⟩
  else none

def isPreserved (set : PreservedEdgeset) (edgeIdx : Nat) : Option Bool :=
  set.preservedBitmap[edgeIdx]?

/-- The bitmap with one bit set. -/
def setBit (set : PreservedEdgeset) (edgeIdx : Nat) (bit : Bool) : PreservedEdgeset :=
  ⟨set.preservedBitmap.set edgeIdx bit, by rw [List.length_set]; exact set.nonempty⟩

def preserveEdgesetForPlacement (set : PreservedEdgeset) : Edgeset → Option PreservedEdgeset
  | [] => some set
  | edgeIdx :: rest => do
      require (edgeIdx < set.preservedBitmap.length)
      (set.setBit edgeIdx true).preserveEdgesetForPlacement rest

/-- Clear the bit of an edge; returns whether no bit is left. -/
def clearPreservedEdgeNode (set : PreservedEdgeset) (edgeIdx : Nat) :
    Option (PreservedEdgeset × Bool) := do
  require (edgeIdx < set.preservedBitmap.length)
  let set' := set.setBit edgeIdx false
  return (set', !set'.preservedBitmap.contains true)

def getSizeForCapacity (set : PreservedEdgeset) : Nat := (set.preservedBitmap.length - 1) / 8 + 1

end PreservedEdgeset

/-- Popularity that an edge reports for a key, if it tracks the key. -/
structure CollectedPopularity where
  isTracked : Bool
  localUncachedPopularity : Popularity
  objectSize : Nat
deriving DecidableEq

/-- Hint for a placement in the edge that missed the key first. -/
structure FastPathHint where
  sumLocalUncachedPopularity : Popularity
  smallestMaxAdmissionBenefit : DeltaReward
deriving DecidableEq

/-- One entry of the multimap; its identifier stands for the iterators to it. -/
structure BenefitPopularity where
  id : Nat
  maxAdmissionBenefit : DeltaReward
  popularity : AggregatedUncachedPopularity

/-- Popularity aggregation of one beacon. -/
structure PopularityAggregator where
  edgecnt : Nat
  popularityAggregationCapacityBytes : Nat
  topkEdgecnt : Nat
  sizeBytes : Nat := 0
  nextId : Nat := 0
  benefitPopularityMultimap : List BenefitPopularity := []
  perkeyBenefitPopularityTable : UnorderedMap Key Nat := ∅
  perkeyPreservedEdgeset : UnorderedMap Key PreservedEdgeset := ∅

namespace PopularityAggregator

/-- Bytes of a maximum admission benefit. -/
def sizeofDeltaReward : Nat := 4

/-- Bytes of an iterator of the multimap. -/
def sizeofIterator : Nat := 8

/-- Weighting of the popularities of the placement edges and of the others. -/
abbrev CalcReward := Popularity → Bool → Popularity → DeltaReward

/-! ## The multimap and its table -/

/-- The entry that an iterator points to. -/
def entry? (a : PopularityAggregator) (id : Nat) : Option BenefitPopularity :=
  a.benefitPopularityMultimap.find? fun entry => entry.id == id

/-- The popularity of a key, if it has one; an iterator of the table must point to an entry. -/
def getAggregatedUncachedPopularity (a : PopularityAggregator) (key : Key) :
    Option (Option AggregatedUncachedPopularity) :=
  match a.perkeyBenefitPopularityTable.lookup key with
  | none => some none
  | some id => do
      let entry ← a.entry? id
      return some entry.popularity

/-- Insert a popularity behind the entries with at most the same benefit, and point the table to
it. -/
def insertBenefitPopularity (a : PopularityAggregator) (key : Key) (benefit : DeltaReward)
    (popularity : AggregatedUncachedPopularity) : PopularityAggregator :=
  { a with
    nextId := a.nextId + 1
    benefitPopularityMultimap :=
      a.benefitPopularityMultimap.orderedInsert
        (fun e e' => e.maxAdmissionBenefit < e'.maxAdmissionBenefit) ⟨a.nextId, benefit, popularity⟩
    perkeyBenefitPopularityTable := a.perkeyBenefitPopularityTable.insert key a.nextId }

def addBenefitPopularityForNewKey (a : PopularityAggregator) (calcReward : CalcReward) (key : Key)
    (popularity : AggregatedUncachedPopularity) (isGlobalCached : Bool) :
    Option PopularityAggregator := do
  require (a.perkeyBenefitPopularityTable.lookup key = none)
  let benefit ← popularity.calcMaxAdmissionBenefit calcReward isGlobalCached
  let a' := a.insertBenefitPopularity key benefit popularity
  return { a' with
    sizeBytes := a'.sizeBytes + sizeofDeltaReward + popularity.getSizeForCapacity +
      key.getKeyLength + sizeofIterator }

def updateBenefitPopularityForExistingKey (a : PopularityAggregator) (calcReward : CalcReward)
    (key : Key) (popularity : AggregatedUncachedPopularity) (isEmpty isGlobalCached : Bool) :
    Option PopularityAggregator := do
  let id ← a.perkeyBenefitPopularityTable.lookup key
  let old ← a.entry? id
  let a' := { a with
    sizeBytes := a.sizeBytes - sizeofDeltaReward - old.popularity.getSizeForCapacity
    benefitPopularityMultimap := a.benefitPopularityMultimap.eraseP fun entry => entry.id == id }
  if isEmpty then
    return { a' with
      perkeyBenefitPopularityTable := a'.perkeyBenefitPopularityTable.erase key
      sizeBytes := a'.sizeBytes - key.getKeyLength - sizeofIterator }
  else
    let benefit ← popularity.calcMaxAdmissionBenefit calcReward isGlobalCached
    let a'' := a'.insertBenefitPopularity key benefit popularity
    return { a'' with
      sizeBytes := a''.sizeBytes + sizeofDeltaReward + popularity.getSizeForCapacity }

/-- Discard the entry with the smallest benefit until the byte count fits; runs out of entries only
by an assertion. -/
def discardLoop (capacityBytes : Nat) : List BenefitPopularity → UnorderedMap Key Nat → Nat →
    Option (List BenefitPopularity × UnorderedMap Key Nat × Nat)
  | [], table, sizeBytes =>
      if sizeBytes ≤ capacityBytes then some ([], table, sizeBytes) else none
  | entry :: rest, table, sizeBytes =>
      if sizeBytes ≤ capacityBytes then some (entry :: rest, table, sizeBytes)
      else do
        require ((table.lookup entry.popularity.key).isSome = true)
        discardLoop capacityBytes rest (table.erase entry.popularity.key)
          (sizeBytes - sizeofDeltaReward - entry.popularity.getSizeForCapacity -
            entry.popularity.key.getKeyLength - sizeofIterator)

def discardGlobalLessPopularObjects (a : PopularityAggregator) : Option PopularityAggregator := do
  let (multimap, table, sizeBytes) ←
    discardLoop a.popularityAggregationCapacityBytes a.benefitPopularityMultimap
      a.perkeyBenefitPopularityTable a.sizeBytes
  return { a with
    benefitPopularityMultimap := multimap
    perkeyBenefitPopularityTable := table
    sizeBytes := sizeBytes }

/-! ## The operations -/

def addAggregatedUncachedPopularityForNewKey (a : PopularityAggregator) (calcReward : CalcReward)
    (key : Key) (sourceEdgeIdx : Nat) (popularity : Popularity) (objectSize : Nat)
    (isGlobalCached : Bool) : Option PopularityAggregator := do
  let new ← (AggregatedUncachedPopularity.create key a.edgecnt).update sourceEdgeIdx popularity
    a.topkEdgecnt objectSize
  require (new.getTopkListLength > 0)
  a.addBenefitPopularityForNewKey calcReward key new isGlobalCached

/-- Add, replace or remove the popularity of the source edge; returns whether it did. -/
def updateAggregatedUncachedPopularityForExistingKey (a : PopularityAggregator)
    (calcReward : CalcReward) (key : Key) (sourceEdgeIdx : Nat) (isTracked : Bool)
    (popularity : Popularity) (objectSize : Nat) (isGlobalCached : Bool) :
    Option (PopularityAggregator × Bool) := do
  let found ← a.getAggregatedUncachedPopularity key
  let existing ← found
  if isTracked then
    let updated ← existing.update sourceEdgeIdx popularity a.topkEdgecnt objectSize
    let a' ← a.updateBenefitPopularityForExistingKey calcReward key updated false isGlobalCached
    return (a', true)
  else
    let (updated, isEmpty, isClear) ← existing.clear sourceEdgeIdx
    let a' ← a.updateBenefitPopularityForExistingKey calcReward key updated isEmpty isGlobalCached
    return (a', isClear)

/-- The source edge is preserved for the key. -/
def isPreservedEdge (a : PopularityAggregator) (key : Key) (sourceEdgeIdx : Nat) : Option Bool :=
  match a.perkeyPreservedEdgeset.lookup key with
  | none => some false
  | some set => set.isPreserved sourceEdgeIdx

/-- Take a report into account, or remove the source's popularity; returns whether a popularity was
removed or reported. -/
def aggregate (a : PopularityAggregator) (calcReward : CalcReward) (key : Key)
    (sourceEdgeIdx : Nat) (collected : CollectedPopularity) (isTracked isGlobalCached : Bool) :
    Option (PopularityAggregator × Bool) :=
  if isTracked then
    if a.perkeyBenefitPopularityTable.lookup key = none then do
      let a' ← a.addAggregatedUncachedPopularityForNewKey calcReward key sourceEdgeIdx
        collected.localUncachedPopularity collected.objectSize isGlobalCached
      let a'' ← a'.discardGlobalLessPopularObjects
      return (a'', true)
    else do
      let (a', isSuccessful) ← a.updateAggregatedUncachedPopularityForExistingKey calcReward key
        sourceEdgeIdx true collected.localUncachedPopularity collected.objectSize isGlobalCached
      require (isSuccessful = true)
      let a'' ← a'.discardGlobalLessPopularObjects
      return (a'', true)
  else if a.perkeyBenefitPopularityTable.lookup key = none then some (a, false)
  else a.updateAggregatedUncachedPopularityForExistingKey calcReward key sourceEdgeIdx false 0 0
    isGlobalCached

/-- The hint for a key that is possibly missed for the first time. -/
def getFastPathHint (a : PopularityAggregator) (key : Key) : Option FastPathHint := do
  let found ← a.getAggregatedUncachedPopularity key
  let sum := (found.map fun p => p.sumLocalUncachedPopularity).getD 0
  let marginBytes := match found with
    | some _ => 4 + 4
    | none =>
        sizeofDeltaReward +
          (key.getKeyLength + 4 + 4 + (4 + 4) + (a.edgecnt - 1) / 8 + 1 + 4) +
          (key.getKeyLength + sizeofIterator)
  let smallest :=
    if a.sizeBytes + marginBytes ≥ a.popularityAggregationCapacityBytes then
      (a.benefitPopularityMultimap.head?.map fun entry => entry.maxAdmissionBenefit).getD 0
    else 0
  return ⟨sum, smallest⟩

/-- A report of a source edge. The popularity of a source that caches the key or is preserved for it
is not taken into account. -/
def updateAggregatedUncachedPopularity (a : PopularityAggregator) (calcReward : CalcReward)
    (key : Key) (sourceEdgeIdx : Nat) (collected : CollectedPopularity)
    (isGlobalCached isSourceCached : Bool) :
    Option (PopularityAggregator × Option FastPathHint) := do
  let isPreserved ← a.isPreservedEdge key sourceEdgeIdx
  let isTracked := collected.isTracked && !isSourceCached && !isPreserved
  let (a', isSuccessful) ←
    a.aggregate calcReward key sourceEdgeIdx collected isTracked isGlobalCached
  let needFastPathHint :=
    !(collected.isTracked && !isSourceCached) && !isSourceCached && !isPreserved && !isSuccessful
  if needFastPathHint then
    let hint ← a'.getFastPathHint key
    return (a', some hint)
  else return (a', none)

/-- The preserved edgeset of a key, a new one if it has none; a new one adds to the byte count. -/
def getOrCreatePreservedEdgeset (a : PopularityAggregator) (key : Key) :
    Option (PreservedEdgeset × Nat) :=
  match a.perkeyPreservedEdgeset.lookup key with
  | some set => some (set, a.sizeBytes)
  | none => do
      let set ← PreservedEdgeset.create a.edgecnt
      return (set, a.sizeBytes + key.getKeyLength + set.getSizeForCapacity)

/-- Forget the popularities of the edges of a placement, if the key has a popularity. -/
def clearPopularityForPlacement (a : PopularityAggregator) (calcReward : CalcReward) (key : Key)
    (placementEdgeset : Edgeset) (isGlobalCached : Bool) : Option PopularityAggregator := do
  let found ← a.getAggregatedUncachedPopularity key
  match found with
  | none => return a
  | some existing =>
      let (updated, isEmpty) ← existing.clearForPlacement placementEdgeset
      a.updateBenefitPopularityForExistingKey calcReward key updated isEmpty isGlobalCached

/-- Preserve the edges of a placement of the key. -/
def updatePreservedEdgesetForPlacement (a : PopularityAggregator) (calcReward : CalcReward)
    (key : Key) (placementEdgeset : Edgeset) (isGlobalCached : Bool) :
    Option PopularityAggregator := do
  let (set, sizeBytes) ← a.getOrCreatePreservedEdgeset key
  let set' ← set.preserveEdgesetForPlacement placementEdgeset
  let a' := { a with
    sizeBytes := sizeBytes
    perkeyPreservedEdgeset := a.perkeyPreservedEdgeset.insert key set' }
  let a'' ← a'.clearPopularityForPlacement calcReward key placementEdgeset isGlobalCached
  a''.discardGlobalLessPopularObjects

/-- The source edge admitted the key: it is not preserved any longer. -/
def clearPreservedEdgesetAfterAdmission (a : PopularityAggregator) (key : Key)
    (sourceEdgeIdx : Nat) : Option PopularityAggregator :=
  match a.perkeyPreservedEdgeset.lookup key with
  | none => some a
  | some set => do
      let (set', isEmpty) ← set.clearPreservedEdgeNode sourceEdgeIdx
      if isEmpty then
        return { a with
          sizeBytes := a.sizeBytes - key.getKeyLength - set'.getSizeForCapacity
          perkeyPreservedEdgeset := a.perkeyPreservedEdgeset.erase key }
      else return { a with perkeyPreservedEdgeset := a.perkeyPreservedEdgeset.insert key set' }

/-- No popularities and no preserved edges. -/
def create (edgecnt popularityAggregationCapacityBytes topkEdgecnt : Nat) :
    PopularityAggregator :=
  { edgecnt, popularityAggregationCapacityBytes, topkEdgecnt }

/-! ## What is stored for a key -/

/-- The popularity that the table leads to for a key. -/
def Stored (a : PopularityAggregator) (key : Key) (p : AggregatedUncachedPopularity) : Prop :=
  ∃ entry ∈ a.benefitPopularityMultimap,
    a.perkeyBenefitPopularityTable.lookup key = some entry.id ∧ entry.popularity = p

/-- The next identifier is not in use. -/
structure Fresh (a : PopularityAggregator) : Prop where
  entries_lt : ∀ entry ∈ a.benefitPopularityMultimap, entry.id < a.nextId
  table_lt : ∀ key id, a.perkeyBenefitPopularityTable.lookup key = some id → id < a.nextId

/-- From `a` to `a'` the popularity of a key is replaced, or removed, and nothing is added. -/
structure Replaces (a : PopularityAggregator) (key : Key) (p : AggregatedUncachedPopularity)
    (a' : PopularityAggregator) : Prop where
  fresh : Fresh a'
  stored : ∀ key' p', Stored a' key' p' → (key' = key ∧ p' = p) ∨ (key' ≠ key ∧ Stored a key' p')
  preserved : a'.perkeyPreservedEdgeset = a.perkeyPreservedEdgeset

/-- From `a` to `a'` popularities are only removed. -/
structure Discards (a a' : PopularityAggregator) : Prop where
  fresh : Fresh a'
  stored : ∀ key p, Stored a' key p → Stored a key p
  preserved : a'.perkeyPreservedEdgeset = a.perkeyPreservedEdgeset

section Stored

variable {a a' : PopularityAggregator} {key : Key} {p : AggregatedUncachedPopularity}

theorem stored_of_getAggregatedUncachedPopularity
    (h : a.getAggregatedUncachedPopularity key = some (some p)) : Stored a key p := by
  unfold getAggregatedUncachedPopularity at h
  split at h
  · cases h
  · next id hid =>
    simp only [bind_eq_some_iff] at h
    obtain ⟨entry, hentry, hp⟩ := h
    cases hp
    have hmem := List.mem_of_find?_eq_some hentry
    have heq := List.find?_some hentry
    rw [beq_iff_eq] at heq
    exact ⟨entry, hmem, by rw [hid, heq], rfl⟩

theorem not_stored_of_getAggregatedUncachedPopularity
    (h : a.getAggregatedUncachedPopularity key = some none) : ¬ Stored a key p := by
  rintro ⟨entry, -, hlookup, -⟩
  simp [getAggregatedUncachedPopularity, hlookup, Option.bind_eq_some_iff] at h

theorem mem_insertBenefitPopularity {benefit : DeltaReward} {entry : BenefitPopularity} :
    entry ∈ (a.insertBenefitPopularity key benefit p).benefitPopularityMultimap ↔
      entry = ⟨a.nextId, benefit, p⟩ ∨ entry ∈ a.benefitPopularityMultimap := by
  unfold insertBenefitPopularity
  rw [(List.perm_orderedInsert _ _ _).mem_iff, List.mem_cons]

/-- An inserted popularity replaces that of its key, since its identifier is fresh. -/
theorem replaces_insertBenefitPopularity (hfresh : Fresh a) (key : Key) (benefit : DeltaReward)
    (p : AggregatedUncachedPopularity) :
    Replaces a key p (a.insertBenefitPopularity key benefit p) := by
  have hlookup : ∀ key',
      (a.insertBenefitPopularity key benefit p).perkeyBenefitPopularityTable.lookup key' =
        if key' = key then some a.nextId else a.perkeyBenefitPopularityTable.lookup key' :=
    fun key' => lookup_insert_eq _ _ _ _
  refine ⟨⟨?_, ?_⟩, ?_, rfl⟩
  · intro entry hentry
    rcases mem_insertBenefitPopularity.1 hentry with rfl | hold
    · exact Nat.lt_succ_self _
    · exact Nat.lt_succ_of_lt (hfresh.entries_lt entry hold)
  · intro key' id hid
    rw [hlookup] at hid
    split at hid
    · cases hid
      exact Nat.lt_succ_self _
    · exact Nat.lt_succ_of_lt (hfresh.table_lt key' id hid)
  · rintro key' p' ⟨entry, hentry, hid, rfl⟩
    rw [hlookup] at hid
    split at hid
    · next hkey =>
      rcases mem_insertBenefitPopularity.1 hentry with rfl | hold
      · exact .inl ⟨hkey, rfl⟩
      · have hlt := hfresh.entries_lt entry hold
        rw [← Option.some.inj hid] at hlt
        exact absurd hlt (lt_irrefl _)
    · next hkey =>
      rcases mem_insertBenefitPopularity.1 hentry with rfl | hold
      · exact absurd (hfresh.table_lt key' _ hid) (lt_irrefl _)
      · exact .inr ⟨hkey, entry, hold, hid, rfl⟩

variable {calcReward : CalcReward}

theorem replaces_addBenefitPopularityForNewKey (hfresh : Fresh a) {isGlobalCached : Bool}
    (h : a.addBenefitPopularityForNewKey calcReward key p isGlobalCached = some a') :
    Replaces a key p a' := by
  simp only [addBenefitPopularityForNewKey, bind_eq_some_iff] at h
  obtain ⟨-, -, benefit, -, ha'⟩ := h
  cases ha'
  obtain ⟨⟨hentries, htable⟩, hstored, hpreserved⟩ :=
    replaces_insertBenefitPopularity hfresh key benefit p
  exact ⟨⟨hentries, htable⟩, hstored, hpreserved⟩

/-- The popularity of an existing key is replaced, or removed if it became empty. -/
theorem replaces_updateBenefitPopularityForExistingKey (hfresh : Fresh a)
    {isEmpty isGlobalCached : Bool}
    (h : a.updateBenefitPopularityForExistingKey calcReward key p isEmpty isGlobalCached =
      some a') : Replaces a key p a' := by
  simp only [updateBenefitPopularityForExistingKey, Option.bind_eq_bind,
    Option.bind_eq_some_iff] at h
  obtain ⟨id, hid, old, hold, h⟩ := h
  have hsub : ∀ entry, entry ∈ (a.benefitPopularityMultimap.eraseP fun entry => entry.id == id) →
      entry ∈ a.benefitPopularityMultimap := fun entry => List.mem_of_mem_eraseP
  split at h
  · cases h
    refine ⟨⟨fun entry hentry => hfresh.entries_lt entry (hsub entry hentry), ?_⟩, ?_, rfl⟩
    · intro key' id' hid'
      rw [lookup_erase_eq] at hid'
      split at hid'
      · cases hid'
      · exact hfresh.table_lt key' id' hid'
    · rintro key' p' ⟨entry, hentry, hid', rfl⟩
      rw [lookup_erase_eq] at hid'
      split at hid'
      · cases hid'
      · next hkey => exact .inr ⟨hkey, entry, hsub entry hentry, hid', rfl⟩
  · simp only [Option.bind_eq_some_iff] at h
    obtain ⟨benefit, -, ha'⟩ := h
    cases ha'
    obtain ⟨⟨hentries, htable⟩, hstored, hpreserved⟩ :=
      replaces_insertBenefitPopularity (a := { a with
          sizeBytes := a.sizeBytes - sizeofDeltaReward - old.popularity.getSizeForCapacity
          benefitPopularityMultimap :=
            a.benefitPopularityMultimap.eraseP fun entry => entry.id == id })
        ⟨fun entry hentry => hfresh.entries_lt entry (hsub entry hentry), hfresh.table_lt⟩ key
        benefit p
    refine ⟨⟨hentries, htable⟩, fun key' p' hp' => ?_, hpreserved⟩
    rcases hstored key' p' hp' with hnew | ⟨hkey, entry, hentry, hid', heq⟩
    · exact .inl hnew
    · exact .inr ⟨hkey, entry, hsub entry hentry, hid', heq⟩

/-- Discarding keeps a part of the multimap and of the table. -/
theorem discardLoop_subset {capacityBytes sizeBytes sizeBytes' : Nat}
    {multimap multimap' : List BenefitPopularity} {table table' : UnorderedMap Key Nat}
    (h : discardLoop capacityBytes multimap table sizeBytes =
      some (multimap', table', sizeBytes')) :
    multimap' ⊆ multimap ∧ ∀ key id, table'.lookup key = some id → table.lookup key = some id := by
  induction multimap generalizing table sizeBytes with
  | nil =>
    rw [discardLoop] at h
    split at h <;> cases h
    exact ⟨List.Subset.refl _, fun _ _ hid => hid⟩
  | cons entry rest ih =>
    rw [discardLoop] at h
    split at h
    · cases h
      exact ⟨List.Subset.refl _, fun _ _ hid => hid⟩
    · rw [require_bind_iff] at h
      obtain ⟨hsub, hlookup⟩ := ih h.2
      refine ⟨fun e he => List.mem_cons_of_mem entry (hsub he), fun key id hid => ?_⟩
      have herase := hlookup key id hid
      rw [lookup_erase_eq] at herase
      split at herase
      · cases herase
      · exact herase

theorem discards_discardGlobalLessPopularObjects (hfresh : Fresh a)
    (h : a.discardGlobalLessPopularObjects = some a') : Discards a a' := by
  simp only [discardGlobalLessPopularObjects, bind_eq_some_iff] at h
  obtain ⟨⟨multimap, table, sizeBytes⟩, hloop, ha'⟩ := h
  obtain ⟨hsub, hlookup⟩ := discardLoop_subset hloop
  cases ha'
  refine ⟨⟨fun entry hentry => hfresh.entries_lt entry (hsub hentry), fun key id hid =>
    hfresh.table_lt key id (hlookup key id hid)⟩, ?_, rfl⟩
  rintro key p ⟨entry, hentry, hid, rfl⟩
  exact ⟨entry, hsub hentry, hlookup key entry.id hid, rfl⟩

end Stored

/-! ## The invariant -/

/-- Preserved edges have no bit in the popularity of their key, and a preserved edgeset is not
empty. -/
structure Invariant (a : PopularityAggregator) : Prop where
  fresh : Fresh a
  no_bit : ∀ (key : Key) (set : PreservedEdgeset) (e : Nat) (p : AggregatedUncachedPopularity),
    a.perkeyPreservedEdgeset.lookup key = some set →
    set.preservedBitmap[e]? = some true → Stored a key p → p.bitmap[e]? ≠ some true
  topk_bits : ∀ key p, Stored a key p → p.TopkBits
  some_edge : ∀ key set, a.perkeyPreservedEdgeset.lookup key = some set →
    true ∈ set.preservedBitmap

theorem invariant_create (edgecnt capacityBytes topkEdgecnt : Nat) :
    Invariant (create edgecnt capacityBytes topkEdgecnt) where
  fresh := ⟨by simp [create], by simp [create]⟩
  no_bit := by simp [create]
  topk_bits := by simp [create, Stored]
  some_edge := by simp [create]

section Steps

variable {a a' : PopularityAggregator} {calcReward : CalcReward} {key : Key} {sourceEdgeIdx : Nat}
  {isGlobalCached : Bool}

theorem Invariant.discards (hinv : Invariant a) (h : Discards a a') : Invariant a' where
  fresh := h.fresh
  no_bit key set e p hset hbit hp :=
    hinv.no_bit key set e p (h.preserved ▸ hset) hbit (h.stored key p hp)
  topk_bits key p hp := hinv.topk_bits key p (h.stored key p hp)
  some_edge key set hset := hinv.some_edge key set (h.preserved ▸ hset)

/-- A popularity without bits of preserved edges may replace that of a key. -/
theorem Invariant.replaces (hinv : Invariant a) {p : AggregatedUncachedPopularity}
    (h : Replaces a key p a') (hbits : p.TopkBits)
    (hno : ∀ (set : PreservedEdgeset) (e : Nat),
      a.perkeyPreservedEdgeset.lookup key = some set → set.preservedBitmap[e]? = some true →
        p.bitmap[e]? ≠ some true) : Invariant a' where
  fresh := h.fresh
  no_bit key' set e p' hset hbit hp' := by
    rw [h.preserved] at hset
    rcases h.stored key' p' hp' with ⟨rfl, rfl⟩ | ⟨-, hold⟩
    · exact hno set e hset hbit
    · exact hinv.no_bit key' set e p' hset hbit hold
  topk_bits key' p' hp' := by
    rcases h.stored key' p' hp' with ⟨rfl, rfl⟩ | ⟨-, hold⟩
    · exact hbits
    · exact hinv.topk_bits key' p' hold
  some_edge key' set hset := hinv.some_edge key' set (h.preserved ▸ hset)

variable {set : PreservedEdgeset}

variable {e objectSize : Nat} {popularity : Popularity} {isTracked isSuccessful : Bool}
    {collected : CollectedPopularity}

/-- The source of a report that is taken into account is not preserved. -/
theorem ne_of_not_preserved (hnot : a.isPreservedEdge key sourceEdgeIdx = some false)
    (hset : a.perkeyPreservedEdgeset.lookup key = some set)
    (hbit : set.preservedBitmap[e]? = some true) : sourceEdgeIdx ≠ e := by
  rintro rfl
  simp only [isPreservedEdge, hset, PreservedEdgeset.isPreserved] at hnot
  rw [hbit] at hnot
  cases hnot

theorem invariant_addAggregatedUncachedPopularityForNewKey (hinv : Invariant a)
    (hnot : a.isPreservedEdge key sourceEdgeIdx = some false)
    (h : a.addAggregatedUncachedPopularityForNewKey calcReward key sourceEdgeIdx popularity
      objectSize isGlobalCached = some a') : Invariant a' := by
  simp only [addAggregatedUncachedPopularityForNewKey, bind_eq_some_iff] at h
  obtain ⟨new, hnew, -, -, hadd⟩ := h
  obtain ⟨hbits, hbitmap⟩ := update_bits
    (topkBits_create key a.edgecnt) hnew
  refine hinv.replaces (replaces_addBenefitPopularityForNewKey hinv.fresh hadd) hbits ?_
  intro set e hset hbit htrue
  rw [hbitmap, List.getElem?_set_ne (ne_of_not_preserved hnot hset hbit)] at htrue
  simp [AggregatedUncachedPopularity.create, List.getElem?_replicate] at htrue

/-- A report of a source that is not preserved, or the removal of the source's popularity. -/
theorem invariant_updateAggregatedUncachedPopularityForExistingKey (hinv : Invariant a)
    (hnot : isTracked = true → a.isPreservedEdge key sourceEdgeIdx = some false)
    (h : a.updateAggregatedUncachedPopularityForExistingKey calcReward key sourceEdgeIdx isTracked
      popularity objectSize isGlobalCached = some (a', isSuccessful)) : Invariant a' := by
  simp only [updateAggregatedUncachedPopularityForExistingKey, Option.bind_eq_bind,
    Option.bind_eq_some_iff] at h
  obtain ⟨found, hfound, existing, rfl, h⟩ := h
  have hstored := stored_of_getAggregatedUncachedPopularity hfound
  have hbits := hinv.topk_bits key existing hstored
  split at h
  · next htracked =>
    simp only [Option.bind_eq_some_iff] at h
    obtain ⟨updated, hupdated, a₁, ha₁, heq⟩ := h
    cases heq
    obtain ⟨hbits', hbitmap⟩ := update_bits hbits hupdated
    refine hinv.replaces (replaces_updateBenefitPopularityForExistingKey hinv.fresh ha₁) hbits' ?_
    intro set e hset hbit
    rw [hbitmap, List.getElem?_set_ne (ne_of_not_preserved (hnot htracked) hset hbit)]
    exact hinv.no_bit key set e existing hset hbit hstored
  · simp only [Option.bind_eq_some_iff] at h
    obtain ⟨⟨updated, isEmpty, isClear⟩, hupdated, a₁, ha₁, heq⟩ := h
    cases heq
    obtain ⟨hbits', hbitmap⟩ := clear_bits hbits hupdated
    refine hinv.replaces (replaces_updateBenefitPopularityForExistingKey hinv.fresh ha₁) hbits' ?_
    intro set e hset hbit htrue
    rw [hbitmap, List.getElem?_set] at htrue
    split at htrue
    · split at htrue <;> simp at htrue
    · exact hinv.no_bit key set e existing hset hbit hstored htrue

theorem invariant_aggregate (hinv : Invariant a)
    (hnot : isTracked = true → a.isPreservedEdge key sourceEdgeIdx = some false)
    (h : a.aggregate calcReward key sourceEdgeIdx collected isTracked isGlobalCached =
      some (a', isSuccessful)) : Invariant a' := by
  unfold aggregate at h
  split at h
  · next htracked =>
    split at h
    · simp only [bind_eq_some_iff] at h
      obtain ⟨a₁, ha₁, a₂, ha₂, heq⟩ := h
      cases heq
      have hinv₁ := invariant_addAggregatedUncachedPopularityForNewKey hinv (hnot htracked) ha₁
      exact hinv₁.discards (discards_discardGlobalLessPopularObjects hinv₁.fresh ha₂)
    · simp only [bind_eq_some_iff] at h
      obtain ⟨⟨a₁, isSuccessful₁⟩, ha₁, -, -, a₂, ha₂, heq⟩ := h
      cases heq
      have hinv₁ := invariant_updateAggregatedUncachedPopularityForExistingKey hinv
        (fun _ => hnot htracked) ha₁
      exact hinv₁.discards (discards_discardGlobalLessPopularObjects hinv₁.fresh ha₂)
  · split at h
    · cases h
      exact hinv
    · exact invariant_updateAggregatedUncachedPopularityForExistingKey hinv (by simp) h

/-- A report keeps the invariant: a preserved source's popularity is removed, not added. -/
theorem invariant_updateAggregatedUncachedPopularity (hinv : Invariant a) {isSourceCached : Bool}
    {hint : Option FastPathHint}
    (h : a.updateAggregatedUncachedPopularity calcReward key sourceEdgeIdx collected
      isGlobalCached isSourceCached = some (a', hint)) : Invariant a' := by
  simp only [updateAggregatedUncachedPopularity, Option.bind_eq_bind,
    Option.bind_eq_some_iff] at h
  obtain ⟨isPreserved, hpreserved, ⟨a₁, isSuccessful⟩, haggregate, h⟩ := h
  have hinv₁ : Invariant a₁ := by
    refine invariant_aggregate hinv (fun htracked => ?_) haggregate
    have hfalse : isPreserved = false := by
      cases isPreserved <;> simp_all
    rw [hpreserved, hfalse]
  split at h
  · simp only [Option.bind_eq_some_iff] at h
    obtain ⟨hint', -, heq⟩ := h
    cases heq
    exact hinv₁
  · cases h
    exact hinv₁

variable {edges : Edgeset}

/-- Preserving a placement sets the bits of its edges and keeps the others. -/
theorem preserveEdgesetForPlacement_bits {set' : PreservedEdgeset}
    (h : set.preserveEdgesetForPlacement edges = some set') (e : Nat) :
    set'.preservedBitmap[e]? = some true ↔ e ∈ edges ∨ set.preservedBitmap[e]? = some true := by
  induction edges generalizing set with
  | nil =>
    cases h
    simp
  | cons first rest ih =>
    rw [PreservedEdgeset.preserveEdgesetForPlacement, require_bind_iff] at h
    rw [ih h.2, PreservedEdgeset.setBit, List.getElem?_set, List.mem_cons]
    by_cases he : first = e
    · subst he
      simp [h.1]
    · simp [he, Ne.symm he]

theorem getOrCreatePreservedEdgeset_bits {sizeBytes : Nat}
    (h : a.getOrCreatePreservedEdgeset key = some (set, sizeBytes))
    (hbit : set.preservedBitmap[e]? = some true) :
    a.perkeyPreservedEdgeset.lookup key = some set := by
  unfold getOrCreatePreservedEdgeset at h
  split at h
  · next hset =>
    cases h
    exact hset
  · simp only [PreservedEdgeset.create, bind_eq_some_iff] at h
    obtain ⟨new, hnew, heq⟩ := h
    cases heq
    split at hnew <;> cases hnew
    simp [List.getElem?_replicate] at hbit

/-- A preserved edgeset may replace that of a key if it is not empty and the popularity of the key
has none of its bits. -/
theorem Invariant.preserves (hinv : Invariant a)
    (hpreserved : a'.perkeyPreservedEdgeset = a.perkeyPreservedEdgeset.insert key set)
    (hfresh : Fresh a') (hsome : true ∈ set.preservedBitmap) (hstored : ∀ key' p, Stored a' key' p →
      (key' = key ∧ p.TopkBits ∧
        ∀ e : Nat, set.preservedBitmap[e]? = some true → p.bitmap[e]? ≠ some true) ∨
      (key' ≠ key ∧ Stored a key' p)) : Invariant a' := by
  have hlookup : ∀ key', a'.perkeyPreservedEdgeset.lookup key' =
      if key' = key then some set else a.perkeyPreservedEdgeset.lookup key' := fun key' => by
    rw [hpreserved]
    exact lookup_insert_eq _ _ _ _
  refine ⟨hfresh, ?_, ?_, ?_⟩
  · intro key' set' e p hset' hbit hp
    rw [hlookup] at hset'
    rcases hstored key' p hp with ⟨rfl, -, hno⟩ | ⟨hkey, hold⟩
    · rw [if_pos rfl] at hset'
      cases hset'
      exact hno e hbit
    · rw [if_neg hkey] at hset'
      exact hinv.no_bit key' set' e p hset' hbit hold
  · intro key' p hp
    rcases hstored key' p hp with ⟨-, hbits, -⟩ | ⟨-, hold⟩
    · exact hbits
    · exact hinv.topk_bits key' p hold
  · intro key' set' hset'
    rw [hlookup] at hset'
    split at hset'
    · cases hset'
      exact hsome
    · exact hinv.some_edge key' set' hset'

/-- What is stored after the popularities of a placement's edges are forgotten: for the key only
bits outside the placement that were set before. -/
theorem stored_clearPopularityForPlacement
    (h : a.clearPopularityForPlacement calcReward key edges isGlobalCached = some a')
    (hfresh : Fresh a) (hbits : ∀ p, Stored a key p → p.TopkBits) :
    Fresh a' ∧ a'.perkeyPreservedEdgeset = a.perkeyPreservedEdgeset ∧
    ∀ key' p, Stored a' key' p →
      (key' = key ∧ p.TopkBits ∧ ∃ q, Stored a key q ∧
        ∀ e : Nat, p.bitmap[e]? = some true → e ∉ edges ∧ q.bitmap[e]? = some true) ∨
      (key' ≠ key ∧ Stored a key' p) := by
  simp only [clearPopularityForPlacement, Option.bind_eq_bind, Option.bind_eq_some_iff] at h
  obtain ⟨found, hfound, h⟩ := h
  cases found with
  | none =>
    cases h
    refine ⟨hfresh, rfl, fun key' p hp => .inr ⟨?_, hp⟩⟩
    rintro rfl
    exact not_stored_of_getAggregatedUncachedPopularity hfound hp
  | some existing =>
    simp only [Option.bind_eq_some_iff] at h
    obtain ⟨⟨updated, isEmpty⟩, hupdated, hreplace⟩ := h
    have hexisting := stored_of_getAggregatedUncachedPopularity hfound
    obtain ⟨hbits', hcleared⟩ :=
      clearForPlacement_bits (hbits existing hexisting) hupdated
    obtain ⟨hfresh', hstored, hpreserved⟩ :=
      replaces_updateBenefitPopularityForExistingKey hfresh hreplace
    refine ⟨hfresh', hpreserved, fun key' p hp => ?_⟩
    rcases hstored key' p hp with ⟨hkey, rfl⟩ | hother
    · exact .inl ⟨hkey, hbits', existing, hexisting, hcleared⟩
    · exact .inr hother

/-- A placement with at least one edge keeps the invariant. -/
theorem invariant_updatePreservedEdgesetForPlacement (hinv : Invariant a) (hedges : edges ≠ [])
    (h : a.updatePreservedEdgesetForPlacement calcReward key edges isGlobalCached = some a') :
    Invariant a' := by
  simp only [updatePreservedEdgesetForPlacement, bind_eq_some_iff] at h
  obtain ⟨⟨set, sizeBytes⟩, hget, set', hset', a₁, hclear, hdiscard⟩ := h
  have hbits := preserveEdgesetForPlacement_bits hset'
  have hsome : true ∈ set'.preservedBitmap := by
    obtain ⟨e, rest, rfl⟩ := List.exists_cons_of_ne_nil hedges
    exact List.mem_of_getElem? ((hbits e).2 (.inl List.mem_cons_self))
  obtain ⟨hfresh₁, hpreserved₁, hstored₁⟩ := stored_clearPopularityForPlacement hclear
    ⟨hinv.fresh.entries_lt, hinv.fresh.table_lt⟩ fun p hp => hinv.topk_bits key p hp
  have hinv₁ : Invariant a₁ := by
    refine hinv.preserves hpreserved₁ hfresh₁ hsome fun key' p hp => ?_
    rcases hstored₁ key' p hp with ⟨hkey, htopk, q, hq, hcleared⟩ | hother
    · refine .inl ⟨hkey, htopk, fun e hbit htrue => ?_⟩
      obtain ⟨hnot, hbefore⟩ := hcleared e htrue
      rcases (hbits e).1 hbit with hmem | hbit
      · exact hnot hmem
      · exact hinv.no_bit key set e q (getOrCreatePreservedEdgeset_bits hget hbit) hbit hq hbefore
    · exact .inr hother
  exact hinv₁.discards (discards_discardGlobalLessPopularObjects hinv₁.fresh hdiscard)

/-- An admission clears the bit of its edge and removes an edgeset that became empty. -/
theorem invariant_clearPreservedEdgesetAfterAdmission (hinv : Invariant a)
    (h : a.clearPreservedEdgesetAfterAdmission key sourceEdgeIdx = some a') : Invariant a' := by
  unfold clearPreservedEdgesetAfterAdmission at h
  split at h
  · cases h
    exact hinv
  · next set hset =>
    simp only [PreservedEdgeset.clearPreservedEdgeNode, bind_eq_some_iff] at h
    obtain ⟨⟨set', isEmpty⟩, ⟨-, -, hclear⟩, h⟩ := h
    cases hclear
    split at h
    · cases h
      refine ⟨⟨hinv.fresh.entries_lt, hinv.fresh.table_lt⟩, ?_, hinv.topk_bits, ?_⟩
      · intro key' set' e p hset' hbit hp
        rw [lookup_erase_eq] at hset'
        split at hset'
        · cases hset'
        · exact hinv.no_bit key' set' e p hset' hbit hp
      · intro key' set' hset'
        rw [lookup_erase_eq] at hset'
        split at hset'
        · cases hset'
        · exact hinv.some_edge key' set' hset'
    · next hsome =>
      cases h
      refine hinv.preserves rfl ⟨hinv.fresh.entries_lt, hinv.fresh.table_lt⟩ ?_ ?_
      · simpa using hsome
      · intro key' p hp
        by_cases hkey : key' = key
        · subst hkey
          refine .inl ⟨rfl, hinv.topk_bits key' p hp, fun e hbit => ?_⟩
          rw [PreservedEdgeset.setBit, List.getElem?_set] at hbit
          split at hbit
          · split at hbit <;> simp at hbit
          · exact hinv.no_bit key' set e p hset hbit hp
        · exact .inr ⟨hkey, hp⟩

end Steps

/-! ## Any mix of operations -/

/-- One operation on the aggregator. -/
inductive Operation
  | updateAggregatedUncachedPopularity (calcReward : CalcReward) (key : Key)
      (sourceEdgeIdx : Nat) (collected : CollectedPopularity)
      (isGlobalCached isSourceCached : Bool)
  | updatePreservedEdgesetForPlacement (calcReward : CalcReward) (key : Key)
      (placementEdgeset : Edgeset) (isGlobalCached : Bool)
  | clearPreservedEdgesetAfterAdmission (key : Key) (sourceEdgeIdx : Nat)
  | discardGlobalLessPopularObjects

/-- One operation; `none` is a failed assertion. -/
def step (a : PopularityAggregator) :
    Operation → Option (PopularityAggregator × Option FastPathHint)
  | .updateAggregatedUncachedPopularity calcReward key source collected isGlobal isSource =>
      a.updateAggregatedUncachedPopularity calcReward key source collected isGlobal isSource
  | .updatePreservedEdgesetForPlacement calcReward key edges isGlobal =>
      (a.updatePreservedEdgesetForPlacement calcReward key edges isGlobal).map fun a' => (a', none)
  | .clearPreservedEdgesetAfterAdmission key source =>
      (a.clearPreservedEdgesetAfterAdmission key source).map fun a' => (a', none)
  | .discardGlobalLessPopularObjects =>
      a.discardGlobalLessPopularObjects.map fun a' => (a', none)

/-- A placement has at least one edge: the placement calculation starts with the top-1 edge. -/
def Operation.Valid : Operation → Prop
  | .updatePreservedEdgesetForPlacement _ _ edges _ => edges ≠ []
  | _ => True

theorem invariant_step {a a' : PopularityAggregator} {op : Operation} {out : Option FastPathHint}
    (hinv : Invariant a) (hop : op.Valid) (h : step a op = some (a', out)) : Invariant a' := by
  cases op with
  | updateAggregatedUncachedPopularity calcReward key source collected isGlobal isSource =>
    exact invariant_updateAggregatedUncachedPopularity hinv h
  | updatePreservedEdgesetForPlacement calcReward key edges isGlobal =>
    simp only [step, Option.map_eq_some_iff] at h
    obtain ⟨a₁, ha₁, heq⟩ := h
    cases heq
    exact invariant_updatePreservedEdgesetForPlacement hinv hop ha₁
  | clearPreservedEdgesetAfterAdmission key source =>
    simp only [step, Option.map_eq_some_iff] at h
    obtain ⟨a₁, ha₁, heq⟩ := h
    cases heq
    exact invariant_clearPreservedEdgesetAfterAdmission hinv ha₁
  | discardGlobalLessPopularObjects =>
    simp only [step, Option.map_eq_some_iff] at h
    obtain ⟨a₁, ha₁, heq⟩ := h
    cases heq
    exact hinv.discards (discards_discardGlobalLessPopularObjects hinv.fresh ha₁)

/-- After any sequence of operations: an edge that is preserved for a key has no existence bit in
the key's popularity and is in none of its placement edgesets, and a key has a preserved edgeset iff
an edge is preserved for it. -/
theorem no_duplicate_placement {edgecnt capacityBytes topkEdgecnt : Nat}
    {tr : List (Operation × Option FastPathHint)} {a : PopularityAggregator}
    (h : Runs step (fun _ op => op.Valid) (create edgecnt capacityBytes topkEdgecnt) tr a) :
    (∀ key e p, a.isPreservedEdge key e = some true →
      a.getAggregatedUncachedPopularity key = some (some p) →
      p.hasLocalUncachedPopularity e ≠ some true ∧
      ∀ r calcReward topicnt isGlobalCached benefit edges,
        p.calcAdmissionBenefit r calcReward topicnt isGlobalCached = some (benefit, edges) →
        e ∉ edges) ∧
    ∀ key, (a.perkeyPreservedEdgeset.lookup key).isSome = true ↔
      ∃ e, a.isPreservedEdge key e = some true := by
  have hinv : Invariant a :=
    h.invariant (invariant_create edgecnt capacityBytes topkEdgecnt) invariant_step
  refine ⟨fun key e p hpreserved hp => ?_, fun key => ⟨fun hsome => ?_, ?_⟩⟩
  · have hstored := stored_of_getAggregatedUncachedPopularity hp
    have hno : p.bitmap[e]? ≠ some true := by
      unfold isPreservedEdge at hpreserved
      split at hpreserved
      · cases hpreserved
      · next set hset => exact hinv.no_bit key set e p hset hpreserved hstored
    refine ⟨hno, fun r calcReward topicnt isGlobalCached benefit edges hedges hmem => hno ?_⟩
    exact AggregatedUncachedPopularity.bit_set_of_calcAdmissionBenefit
      (hinv.topk_bits key p hstored) hedges hmem
  · obtain ⟨set, hset⟩ := Option.isSome_iff_exists.1 hsome
    obtain ⟨e, he⟩ := List.mem_iff_getElem?.1 (hinv.some_edge key set hset)
    exact ⟨e, by simpa [isPreservedEdge, hset, PreservedEdgeset.isPreserved] using he⟩
  · rintro ⟨e, he⟩
    unfold isPreservedEdge at he
    split at he
    · cases he
    · next set hset => rw [hset, Option.isSome_some]

instance : (op : Operation) → Decidable op.Valid
  | .updatePreservedEdgesetForPlacement _ _ edges _ => inferInstanceAs (Decidable (edges ≠ []))
  | .updateAggregatedUncachedPopularity .. => inferInstanceAs (Decidable True)
  | .clearPreservedEdgesetAfterAdmission .. => inferInstanceAs (Decidable True)
  | .discardGlobalLessPopularObjects => inferInstanceAs (Decidable True)

/-- Two of three edges report, the more popular one is preserved and reports again. -/
theorem no_duplicate_placement_preservedReport :
    ∃ tr a, Runs step (fun _ op => op.Valid) (create 3 1000 2) tr a ∧
      a.isPreservedEdge ⟨[7]⟩ 1 = some true ∧
      ∃ p, a.getAggregatedUncachedPopularity ⟨[7]⟩ = some (some p) ∧
        p.hasLocalUncachedPopularity 1 ≠ some true := by
  have hexec : (exec step (fun _ op => op.Valid) (create 3 1000 2)
      [.updateAggregatedUncachedPopularity (fun p _ q => p + q) ⟨[7]⟩ 0 ⟨true, 4, 10⟩ false false,
        .updateAggregatedUncachedPopularity (fun p _ q => p + q) ⟨[7]⟩ 1 ⟨true, 6, 10⟩ false false,
        .updatePreservedEdgesetForPlacement (fun p _ q => p + q) ⟨[7]⟩ [1] false,
        .updateAggregatedUncachedPopularity (fun p _ q => p + q) ⟨[7]⟩ 1 ⟨true, 8, 10⟩ false
          false]).any (fun a => decide (a.isPreservedEdge ⟨[7]⟩ 1 = some true) &&
        (a.getAggregatedUncachedPopularity ⟨[7]⟩).any Option.isSome) = true := by
    decide +kernel
  obtain ⟨tr, a, hrun, -, ha⟩ := exists_runs_of_any hexec
  rw [Bool.and_eq_true, decide_eq_true_eq] at ha
  obtain ⟨found, hfound, hsome⟩ := (Option.any_eq_true _ _).1 ha.2
  obtain ⟨p, rfl⟩ := Option.isSome_iff_exists.1 hsome
  exact ⟨tr, a, hrun, ha.1, p, hfound,
    ((no_duplicate_placement hrun).1 ⟨[7]⟩ 1 p ha.1 hfound).1⟩

end PopularityAggregator

end Covered.Popularity
