import Covered.Popularity.PopularityAggregator

/-!
# Bookkeeping of the popularity aggregator

The aggregator keeps every popularity twice, as an entry of the multimap and as an iterator in the
table, and counts the bytes of both and of the preserved edgesets by increments and decrements.

`Linked` says that the table and the multimap are inverse to each other and that each entry lies
under the benefit that its key's latest report or placement gives. It has two rules, one for the
removal of an entry and one for the insertion of an entry of a new key; every operation is made of
them. The byte count then equals the sum over what is stored (`bookedBytes`), from which it follows
that no decrement is larger than the count it is taken from (`NoUnderflow`).
-/

set_option autoImplicit false

namespace Covered.Popularity.PopularityAggregator

open Common Lib Lib.Checked Lib.Execution Lib.SortBy UnorderedMap List PreservedEdgeset
open Option hiding bind_eq_some_iff

/-! ## The bytes of what is stored -/

/-- Bytes of an entry of the multimap. -/
def entryBytes (entry : BenefitPopularity) : Nat :=
  sizeofDeltaReward + entry.popularity.getSizeForCapacity

/-- Bytes of all entries of the multimap. -/
def multimapBytes (multimap : List BenefitPopularity) : Nat :=
  (multimap.map entryBytes).sum

/-- Bytes of the keys and the iterators of the table. -/
def tableBytes (table : UnorderedMap Key Nat) : Nat :=
  UnorderedMap.sumBy (fun key _ => key.getKeyLength + sizeofIterator) table

/-- Bytes of the preserved edgesets and their keys. -/
def preservedBytes (preserved : UnorderedMap Key PreservedEdgeset) : Nat :=
  UnorderedMap.sumBy (fun key set => key.getKeyLength + set.getSizeForCapacity) preserved

/-- The bytes of everything the aggregator stores. -/
def bookedBytes (a : PopularityAggregator) : Nat :=
  multimapBytes a.benefitPopularityMultimap + tableBytes a.perkeyBenefitPopularityTable +
    preservedBytes a.perkeyPreservedEdgeset

/-! ## Subtractions of the operations -/

/-- No subtraction of `updateBenefitPopularityForExistingKey` exceeds the byte count. -/
def ExistingKeyFits (a : PopularityAggregator) (key : Key) : Prop :=
  ∀ id old, a.perkeyBenefitPopularityTable.lookup key = some id → a.entry? id = some old →
    sizeofDeltaReward + old.popularity.getSizeForCapacity + key.getKeyLength + sizeofIterator ≤
      a.sizeBytes

/-- No subtraction of `discardLoop` exceeds the byte count. -/
def DiscardFits (capacityBytes : Nat) : List BenefitPopularity → Nat → Prop
  | [], _ => True
  | entry :: rest, sizeBytes =>
      sizeBytes ≤ capacityBytes ∨
        (sizeofDeltaReward + entry.popularity.getSizeForCapacity +
            entry.popularity.key.getKeyLength + sizeofIterator ≤ sizeBytes ∧
          DiscardFits capacityBytes rest
            (sizeBytes - sizeofDeltaReward - entry.popularity.getSizeForCapacity -
              entry.popularity.key.getKeyLength - sizeofIterator))

/-- No subtraction of `discardGlobalLessPopularObjects` exceeds the byte count. -/
def GlobalDiscardFits (a : PopularityAggregator) : Prop :=
  DiscardFits a.popularityAggregationCapacityBytes a.benefitPopularityMultimap a.sizeBytes

/-- No subtraction of an operation exceeds the byte count, in the state in which it is made. -/
def NoUnderflow (a : PopularityAggregator) : Operation → Prop
  | .updateAggregatedUncachedPopularity calcReward key source collected isGlobal _ =>
      ExistingKeyFits a key ∧
      -- the states in which the less popular objects are discarded
      (∀ a₁, a.addAggregatedUncachedPopularityForNewKey calcReward key source
        collected.localUncachedPopularity collected.objectSize isGlobal = some a₁ →
        GlobalDiscardFits a₁) ∧
      (∀ a₁ isSuccessful, a.updateAggregatedUncachedPopularityForExistingKey calcReward key source
        true collected.localUncachedPopularity collected.objectSize isGlobal =
          some (a₁, isSuccessful) → GlobalDiscardFits a₁)
  | .updatePreservedEdgesetForPlacement calcReward key edges isGlobal =>
      ∀ set sizeBytes set', a.getOrCreatePreservedEdgeset key = some (set, sizeBytes) →
        set.preserveEdgesetForPlacement edges = some set' →
        -- the state after the edges are preserved, in which the popularity is cleared
        ExistingKeyFits
          { a with
            sizeBytes := sizeBytes
            perkeyPreservedEdgeset := a.perkeyPreservedEdgeset.insert key set' } key ∧
        ∀ a₁, clearPopularityForPlacement
          { a with
            sizeBytes := sizeBytes
            perkeyPreservedEdgeset := a.perkeyPreservedEdgeset.insert key set' }
          calcReward key edges isGlobal = some a₁ → GlobalDiscardFits a₁
  | .clearPreservedEdgesetAfterAdmission key _ =>
      ∀ set, a.perkeyPreservedEdgeset.lookup key = some set →
        key.getKeyLength + set.getSizeForCapacity ≤ a.sizeBytes
  | .discardGlobalLessPopularObjects => GlobalDiscardFits a

/-! ## The weighting of an entry -/

/-- The weighting that an operation uses for a key: its reward function and whether the key is
cached somewhere. -/
def Operation.weighting (key : Key) : Operation → Option (CalcReward × Bool)
  | .updateAggregatedUncachedPopularity calcReward key' _ _ isGlobal _ =>
      if key = key' then some (calcReward, isGlobal) else none
  | .updatePreservedEdgesetForPlacement calcReward key' _ isGlobal =>
      if key = key' then some (calcReward, isGlobal) else none
  | .clearPreservedEdgesetAfterAdmission _ _ => none
  | .discardGlobalLessPopularObjects => none

/-- The weighting of the latest report or placement of a key. -/
def lastWeighting (tr : List (Operation × Option FastPathHint)) (key : Key) :
    Option (CalcReward × Bool) :=
  tr.findSome? fun action => action.1.weighting key

/-! ## Table and multimap -/

/-- The multimap and its table are inverse to each other, and every entry lies under its maximum
admission benefit for the weighting `last` of its key. -/
structure Linked (last : Key → Option (CalcReward × Bool)) (multimap : List BenefitPopularity)
    (table : UnorderedMap Key Nat) (nextId : Nat) : Prop where
  denotes : ∀ key id, table.lookup key = some id →
    ∃ entry ∈ multimap, entry.id = id ∧ entry.popularity.key = key
  indexed : ∀ entry ∈ multimap, table.lookup entry.popularity.key = some entry.id
  distinct : (multimap.map fun entry => entry.id).Nodup
  fresh : ∀ entry ∈ multimap, entry.id < nextId
  ordered : Ascending (fun entry : BenefitPopularity => entry.maxAdmissionBenefit) multimap
  weighed : ∀ entry ∈ multimap, ∃ calcReward isGlobalCached,
    last entry.popularity.key = some (calcReward, isGlobalCached) ∧
      entry.popularity.calcMaxAdmissionBenefit calcReward isGlobalCached =
        some entry.maxAdmissionBenefit

section Linked

variable {last last' : Key → Option (CalcReward × Bool)}
  {multimap multimap' : List BenefitPopularity}
  {table table' : UnorderedMap Key Nat} {nextId : Nat} {entry entry' : BenefitPopularity}

section Linked

variable (h : Linked last multimap table nextId)
include h

theorem Linked.eq_of_id (hmem : entry ∈ multimap) (hmem' : entry' ∈ multimap)
    (hid : entry.id = entry'.id) : entry = entry' :=
  inj_on_of_nodup_map h.distinct hmem hmem' hid

theorem Linked.eq_of_key (hmem : entry ∈ multimap) (hmem' : entry' ∈ multimap)
    (hkey : entry.popularity.key = entry'.popularity.key) :
    entry = entry' := by
  apply h.eq_of_id hmem hmem'
  have hlookup := h.indexed entry hmem
  rw [hkey, h.indexed entry' hmem'] at hlookup
  exact (some.inj hlookup).symm

/-- The weighting of a key without an entry does not matter. -/
theorem Linked.reweigh (hlast : ∀ key, table.lookup key ≠ none → last' key = last key) :
    Linked last' multimap table nextId where
  denotes := h.denotes
  indexed := h.indexed
  distinct := h.distinct
  fresh := h.fresh
  ordered := h.ordered
  weighed entry hentry := by
    obtain ⟨calcReward, isGlobalCached, hweighting, hbenefit⟩ := h.weighed entry hentry
    refine ⟨calcReward, isGlobalCached, ?_, hbenefit⟩
    rw [hlast, hweighting]
    rw [h.indexed entry hentry]
    exact some_ne_none _

/-- An entry is removed together with the iterator of its key. -/
theorem Linked.remove (table' : UnorderedMap Key Nat) (hsplit : multimap.Perm (entry :: multimap'))
    (hsub : multimap'.Sublist multimap)
    (hlookup : ∀ key, table'.lookup key =
      if key = entry.popularity.key then none else table.lookup key) :
    Linked last multimap' table' nextId := by
  have hmem : entry ∈ multimap := hsplit.mem_iff.2 mem_cons_self
  have hdistinct := (hsplit.map fun entry => entry.id).nodup_iff.1 h.distinct
  rw [map_cons, nodup_cons] at hdistinct
  -- an entry that stays has another key than the removed one
  have hother : ∀ e ∈ multimap', e.popularity.key ≠ entry.popularity.key := by
    intro e he hkey
    have heq := h.eq_of_key (hsub.subset he) hmem hkey
    exact hdistinct.1 (heq ▸ mem_map_of_mem he)
  refine ⟨fun key id hid => ?_, fun e he => ?_, hdistinct.2, fun e he => h.fresh e (hsub.subset he),
    h.ordered.sublist hsub, fun e he => h.weighed e (hsub.subset he)⟩
  · rw [hlookup] at hid
    split at hid
    · cases hid
    · next hkey =>
      obtain ⟨e, he, heid, hekey⟩ := h.denotes key id hid
      refine ⟨e, ?_, heid, hekey⟩
      rcases mem_cons.1 (hsplit.mem_iff.1 he) with rfl | he
      · exact absurd hekey.symm hkey
      · exact he
  · rw [hlookup, if_neg (hother e he)]
    exact h.indexed e (hsub.subset he)

/-- An entry of a new key is inserted with the next identifier. -/
theorem Linked.insert (entry : BenefitPopularity) (hid : entry.id = nextId)
    (hnew : table.lookup entry.popularity.key = none)
    (hlookup : ∀ key, table'.lookup key =
      if key = entry.popularity.key then some entry.id else table.lookup key)
    {calcReward : CalcReward} {isGlobalCached : Bool}
    (hweighting : last entry.popularity.key = some (calcReward, isGlobalCached))
    (hbenefit : entry.popularity.calcMaxAdmissionBenefit calcReward isGlobalCached =
      some entry.maxAdmissionBenefit) :
    Linked last (multimap.orderedInsert
      (fun e e' => e.maxAdmissionBenefit < e'.maxAdmissionBenefit) entry) table' (nextId + 1) := by
  have hperm := perm_orderedInsert
    (fun e e' : BenefitPopularity => e.maxAdmissionBenefit < e'.maxAdmissionBenefit) entry multimap
  have hcases : ∀ e, e ∈ multimap.orderedInsert
      (fun e e' => e.maxAdmissionBenefit < e'.maxAdmissionBenefit) entry ↔
      e = entry ∨ e ∈ multimap := fun e => by rw [hperm.mem_iff, mem_cons]
  refine ⟨fun key id hkey => ?_, fun e he => ?_, ?_, fun e he => ?_, h.ordered.orderedInsert entry,
    fun e he => ?_⟩
  · rw [hlookup] at hkey
    split at hkey
    · next heq =>
      cases hkey
      exact ⟨entry, (hcases entry).2 (.inl rfl), rfl, heq.symm⟩
    · obtain ⟨e, he, heid, hekey⟩ := h.denotes key id hkey
      exact ⟨e, (hcases e).2 (.inr he), heid, hekey⟩
  · rw [hlookup]
    rcases (hcases e).1 he with rfl | he
    · rw [if_pos rfl]
    · have hindexed := h.indexed e he
      rw [if_neg, hindexed]
      intro hkey
      rw [hkey, hnew] at hindexed
      cases hindexed
  · rw [(hperm.map fun e => e.id).nodup_iff, map_cons, nodup_cons]
    refine ⟨fun hmem => ?_, h.distinct⟩
    obtain ⟨e, he, heid⟩ := mem_map.1 hmem
    have hlt := h.fresh e he
    omega
  · rcases (hcases e).1 he with rfl | he
    · omega
    · exact Nat.lt_succ_of_lt (h.fresh e he)
  · rcases (hcases e).1 he with rfl | he
    · exact ⟨calcReward, isGlobalCached, hweighting, hbenefit⟩
    · exact h.weighed e he

end Linked

end Linked

/-! ## The invariant -/

/-- Table and multimap are linked, and the byte count is that of everything stored. -/
structure Booked (last : Key → Option (CalcReward × Bool)) (a : PopularityAggregator) : Prop where
  linked : Linked last a.benefitPopularityMultimap a.perkeyBenefitPopularityTable a.nextId
  bytes : a.sizeBytes = bookedBytes a

theorem booked_create (edgecnt capacityBytes topkEdgecnt : Nat) :
    Booked (lastWeighting []) (create edgecnt capacityBytes topkEdgecnt) where
  linked := ⟨by simp [create], by simp [create], nodup_nil, by simp [create],
    List.Pairwise.nil, by simp [create]⟩
  bytes := rfl

section Bytes

variable {multimap multimap' : List BenefitPopularity} {table : UnorderedMap Key Nat}
  {entry : BenefitPopularity} {key : Key} {id : Nat} {set set' : PreservedEdgeset}

theorem multimapBytes_of_perm (h : multimap.Perm (entry :: multimap')) :
    multimapBytes multimap = entryBytes entry + multimapBytes multimap' := by
  rw [multimapBytes, (h.map entryBytes).sum_eq, map_cons, sum_cons, multimapBytes]

theorem tableBytes_erase (h : table.lookup key = some id) :
    tableBytes (table.erase key) + (key.getKeyLength + sizeofIterator) = tableBytes table := by
  have herase := sumBy_erase
    (fun (key : Key) (_ : Nat) => key.getKeyLength + sizeofIterator) table key
  rw [h, elim_some] at herase
  exact herase

/-- An iterator of a new key adds its bytes. -/
theorem tableBytes_insert_new (h : table.lookup key = none) (id : Nat) :
    tableBytes (table.insert key id) = tableBytes table + (key.getKeyLength + sizeofIterator) := by
  have hinsert := sumBy_insert
    (fun (key : Key) (_ : Nat) => key.getKeyLength + sizeofIterator) table key id
  rw [h, elim_none] at hinsert
  exact hinsert

/-- The iterator of an existing key is replaced without a change of the bytes. -/
theorem tableBytes_insert_existing (h : table.lookup key = some id) (id' : Nat) :
    tableBytes (table.insert key id') = tableBytes table := by
  have hinsert := sumBy_insert
    (fun (key : Key) (_ : Nat) => key.getKeyLength + sizeofIterator) table key id'
  rw [h, elim_some] at hinsert
  exact Nat.add_right_cancel hinsert

/-- Preserving edges does not change the bytes of an edgeset. -/
theorem getSizeForCapacity_preserveEdgesetForPlacement {edges : Edgeset}
    (h : set.preserveEdgesetForPlacement edges = some set') :
    set'.getSizeForCapacity = set.getSizeForCapacity := by
  induction edges generalizing set with
  | nil =>
    cases h
    rfl
  | cons edgeIdx rest ih =>
    rw [preserveEdgesetForPlacement, require_bind_iff] at h
    rw [ih h.2, PreservedEdgeset.getSizeForCapacity, PreservedEdgeset.getSizeForCapacity, setBit,
      length_set]

/-- Clearing an edge does not change the bytes of an edgeset. -/
theorem getSizeForCapacity_clearPreservedEdgeNode {edgeIdx : Nat} {isEmpty : Bool}
    (h : set.clearPreservedEdgeNode edgeIdx = some (set', isEmpty)) :
    set'.getSizeForCapacity = set.getSizeForCapacity := by
  rw [clearPreservedEdgeNode, require_bind_iff] at h
  obtain ⟨-, heq⟩ := h
  cases heq
  rw [PreservedEdgeset.getSizeForCapacity, PreservedEdgeset.getSizeForCapacity, setBit, length_set]

end Bytes

section Steps

variable {last last' : Key → Option (CalcReward × Bool)} {a a' : PopularityAggregator} {key : Key}
  {p : AggregatedUncachedPopularity} {calcReward : CalcReward} {isGlobalCached : Bool}

/-- The iterator of a key denotes an entry of this key, which can be split off. -/
theorem Booked.split (h : Booked last a) {id : Nat} {old : BenefitPopularity}
    (hid : a.perkeyBenefitPopularityTable.lookup key = some id) (hold : a.entry? id = some old) :
    old.popularity.key = key ∧
    a.benefitPopularityMultimap.Perm
      (old :: a.benefitPopularityMultimap.eraseP fun entry => entry.id == id) := by
  have hmem := mem_of_find?_eq_some hold
  have holdid : old.id = id := by simpa using find?_some hold
  obtain ⟨entry, hentry, hentryid, hkey⟩ := h.linked.denotes key id hid
  have heq : old = entry := h.linked.eq_of_id hmem hentry (holdid.trans hentryid.symm)
  refine ⟨heq ▸ hkey, ?_⟩
  obtain ⟨e, front, rest, -, heid, hlist, herase⟩ :=
    exists_of_eraseP hmem (p := fun entry => entry.id == id) (by simpa using holdid)
  have he : e = old := by
    apply h.linked.eq_of_id _ hmem
    · rw [beq_iff_eq] at heid
      rw [heid, holdid]
    · rw [hlist]
      exact mem_append_right front mem_cons_self
  rw [herase, hlist, he]
  exact perm_middle

/-- What is stored for an existing key fits into the byte count. -/
theorem Booked.existingKeyFits (h : Booked last a) (key : Key) : ExistingKeyFits a key := by
  intro id old hid hold
  obtain ⟨-, hsplit⟩ := h.split hid hold
  have hmultimap := multimapBytes_of_perm hsplit
  have htable := tableBytes_erase hid
  have hbytes := h.bytes
  rw [bookedBytes] at hbytes
  rw [entryBytes] at hmultimap
  omega

/-- A popularity of a new key is added under the weighting it is added with. -/
theorem booked_addBenefitPopularityForNewKey (h : Booked last a) (hkey : p.key = key)
    (hlast : last' key = some (calcReward, isGlobalCached))
    (hother : ∀ key', key' ≠ key → last' key' = last key')
    (hadd : a.addBenefitPopularityForNewKey calcReward key p isGlobalCached = some a') :
    Booked last' a' := by
  simp only [addBenefitPopularityForNewKey, bind_eq_some_iff, require_eq_some_iff] at hadd
  obtain ⟨-, hnew, benefit, hbenefit, ha'⟩ := hadd
  cases ha'
  subst hkey
  have hlinked : Linked last' a.benefitPopularityMultimap a.perkeyBenefitPopularityTable
      a.nextId := by
    refine h.linked.reweigh fun key' hkey' => hother key' ?_
    rintro rfl
    exact hkey' hnew
  constructor
  · exact hlinked.insert ⟨a.nextId, benefit, p⟩ rfl hnew
      (fun key' => lookup_insert_eq _ _ _ _) hlast hbenefit
  · have hbytes := h.bytes
    have htable := tableBytes_insert_new hnew a.nextId
    have hmultimap := multimapBytes_of_perm (perm_orderedInsert
      (fun e e' : BenefitPopularity => e.maxAdmissionBenefit < e'.maxAdmissionBenefit)
      ⟨a.nextId, benefit, p⟩ a.benefitPopularityMultimap)
    simp only [bookedBytes, entryBytes] at hbytes hmultimap
    simp only [bookedBytes, insertBenefitPopularity]
    omega

/-- The popularity of an existing key is replaced under the new weighting, or removed. -/
theorem booked_updateBenefitPopularityForExistingKey (h : Booked last a) (hkey : p.key = key)
    (hlast : last' key = some (calcReward, isGlobalCached))
    (hother : ∀ key', key' ≠ key → last' key' = last key') {isEmpty : Bool}
    (hupdate : a.updateBenefitPopularityForExistingKey calcReward key p isEmpty isGlobalCached =
      some a') : Booked last' a' := by
  simp only [updateBenefitPopularityForExistingKey, bind_eq_bind,
    Option.bind_eq_some_iff] at hupdate
  obtain ⟨id, hid, old, hold, hupdate⟩ := hupdate
  obtain ⟨holdkey, hsplit⟩ := h.split hid hold
  have hbytes := h.bytes
  have hmultimap := multimapBytes_of_perm hsplit
  have htable := tableBytes_erase hid
  -- without the old entry and its iterator the weighting of the key may change
  have hlinked : Linked last' (a.benefitPopularityMultimap.eraseP fun entry => entry.id == id)
      (a.perkeyBenefitPopularityTable.erase key) a.nextId := by
    have hremoved := h.linked.remove (a.perkeyBenefitPopularityTable.erase key) hsplit
      eraseP_sublist fun key' => by rw [holdkey, lookup_erase_eq]
    refine hremoved.reweigh fun key' hkey' => hother key' ?_
    rintro rfl
    exact hkey' (AList.lookup_erase _ _)
  split at hupdate
  · cases hupdate
    constructor
    · exact hlinked
    · simp only [bookedBytes, entryBytes] at hbytes hmultimap ⊢
      omega
  · simp only [Option.bind_eq_some_iff] at hupdate
    obtain ⟨benefit, hbenefit, ha'⟩ := hupdate
    cases ha'
    subst hkey
    constructor
    · refine hlinked.insert ⟨a.nextId, benefit, p⟩ rfl (AList.lookup_erase _ _)
        (fun key' => ?_) hlast hbenefit
      rw [insertBenefitPopularity, lookup_insert_eq, lookup_erase_eq]
      split <;> rfl
    · have hreplaced := tableBytes_insert_existing hid a.nextId
      have hinserted := multimapBytes_of_perm (perm_orderedInsert
        (fun e e' : BenefitPopularity => e.maxAdmissionBenefit < e'.maxAdmissionBenefit)
        ⟨a.nextId, benefit, p⟩ (a.benefitPopularityMultimap.eraseP fun entry => entry.id == id))
      simp only [bookedBytes, entryBytes] at hbytes hmultimap hinserted
      simp only [bookedBytes, insertBenefitPopularity]
      omega

variable {sizeBytes : Nat}

variable {capacityBytes nextId rest objectSize : Nat} {popularity : Popularity}
    {isTracked isSuccessful : Bool} {collected : CollectedPopularity}

/-- Discarding removes entries with their iterators and takes their bytes off the count. -/
theorem linked_discardLoop {sizeBytes' : Nat}
    {multimap multimap' : List BenefitPopularity} {table table' : UnorderedMap Key Nat}
    (h : Linked last multimap table nextId)
    (hbytes : sizeBytes = multimapBytes multimap + tableBytes table + rest)
    (hloop : discardLoop capacityBytes multimap table sizeBytes =
      some (multimap', table', sizeBytes')) :
    Linked last multimap' table' nextId ∧
      sizeBytes' = multimapBytes multimap' + tableBytes table' + rest := by
  induction multimap generalizing table sizeBytes with
  | nil =>
    rw [discardLoop] at hloop
    split at hloop <;> cases hloop
    exact ⟨h, hbytes⟩
  | cons entry others ih =>
    rw [discardLoop] at hloop
    split at hloop
    · cases hloop
      exact ⟨h, hbytes⟩
    · rw [require_bind_iff] at hloop
      have hindexed := h.indexed entry mem_cons_self
      refine ih ?_ ?_ hloop.2
      · exact h.remove _ (List.Perm.refl _) (sublist_cons_self entry others)
          fun key => lookup_erase_eq _ _ _
      · have htable := tableBytes_erase hindexed
        rw [multimapBytes_of_perm (List.Perm.refl _), entryBytes] at hbytes
        omega

/-- The entries that are discarded fit into the byte count. -/
theorem discardFits_of_linked {multimap : List BenefitPopularity}
    {table : UnorderedMap Key Nat} (h : Linked last multimap table nextId)
    (hbytes : sizeBytes = multimapBytes multimap + tableBytes table + rest) :
    DiscardFits capacityBytes multimap sizeBytes := by
  induction multimap generalizing table sizeBytes with
  | nil => trivial
  | cons entry others ih =>
    have htable := tableBytes_erase (h.indexed entry mem_cons_self)
    rw [multimapBytes_of_perm (List.Perm.refl _), entryBytes] at hbytes
    refine .inr ⟨by omega, ?_⟩
    apply ih
    · exact h.remove _ (List.Perm.refl _) (sublist_cons_self entry others)
        fun key => lookup_erase_eq _ _ _
    · omega

theorem Booked.globalDiscardFits (h : Booked last a) : GlobalDiscardFits a :=
  discardFits_of_linked h.linked h.bytes

theorem booked_discardGlobalLessPopularObjects (h : Booked last a)
    (hdiscard : a.discardGlobalLessPopularObjects = some a') : Booked last a' := by
  simp only [discardGlobalLessPopularObjects, bind_eq_some_iff] at hdiscard
  obtain ⟨⟨multimap, table, sizeBytes⟩, hloop, ha'⟩ := hdiscard
  obtain ⟨hlinked, hbytes⟩ := linked_discardLoop h.linked h.bytes hloop
  cases ha'
  exact ⟨hlinked, hbytes⟩

variable {source : Nat}

theorem booked_addAggregatedUncachedPopularityForNewKey (h : Booked last a)
    (hlast : last' key = some (calcReward, isGlobalCached))
    (hother : ∀ key', key' ≠ key → last' key' = last key')
    (hadd : a.addAggregatedUncachedPopularityForNewKey calcReward key source popularity objectSize
      isGlobalCached = some a') : Booked last' a' := by
  simp only [addAggregatedUncachedPopularityForNewKey, bind_eq_some_iff] at hadd
  obtain ⟨new, hnew, -, -, hadd⟩ := hadd
  exact booked_addBenefitPopularityForNewKey h (AggregatedUncachedPopularity.update_key hnew) hlast
    hother hadd

/-- The popularity that the table leads to is that of the key. -/
theorem Booked.key_eq (h : Booked last a)
    (hfound : a.getAggregatedUncachedPopularity key = some (some p)) : p.key = key := by
  obtain ⟨entry, hentry, hlookup, rfl⟩ := stored_of_getAggregatedUncachedPopularity hfound
  obtain ⟨entry', hentry', hid, hkey⟩ := h.linked.denotes key entry.id hlookup
  rw [← h.linked.eq_of_id hentry' hentry hid]
  exact hkey

theorem booked_updateAggregatedUncachedPopularityForExistingKey (h : Booked last a)
    (hlast : last' key = some (calcReward, isGlobalCached))
    (hother : ∀ key', key' ≠ key → last' key' = last key')
    (hupdate : a.updateAggregatedUncachedPopularityForExistingKey calcReward key source isTracked
      popularity objectSize isGlobalCached = some (a', isSuccessful)) : Booked last' a' := by
  simp only [updateAggregatedUncachedPopularityForExistingKey, bind_eq_bind,
    Option.bind_eq_some_iff] at hupdate
  obtain ⟨found, hfound, existing, rfl, hupdate⟩ := hupdate
  have hkey := h.key_eq hfound
  split at hupdate
  · simp only [Option.bind_eq_some_iff] at hupdate
    obtain ⟨updated, hupdated, a₁, ha₁, heq⟩ := hupdate
    cases heq
    have hkey₁ := (AggregatedUncachedPopularity.update_key hupdated).trans hkey
    exact booked_updateBenefitPopularityForExistingKey h hkey₁ hlast hother ha₁
  · simp only [Option.bind_eq_some_iff] at hupdate
    obtain ⟨⟨updated, isEmpty, isClear⟩, hupdated, a₁, ha₁, heq⟩ := hupdate
    cases heq
    have hkey₁ := (AggregatedUncachedPopularity.clear_key hupdated).trans hkey
    exact booked_updateBenefitPopularityForExistingKey h hkey₁ hlast hother ha₁

/-- The weighting of a key that has no entry may change. -/
theorem Booked.reweigh (h : Booked last a)
    (hnone : a.perkeyBenefitPopularityTable.lookup key = none)
    (hother : ∀ key', key' ≠ key → last' key' = last key') : Booked last' a := by
  refine ⟨h.linked.reweigh fun key' hkey' => hother key' ?_, h.bytes⟩
  rintro rfl
  exact hkey' hnone

theorem booked_aggregate (h : Booked last a) (hlast : last' key = some (calcReward, isGlobalCached))
    (hother : ∀ key', key' ≠ key → last' key' = last key')
    (haggregate : a.aggregate calcReward key source collected isTracked isGlobalCached =
      some (a', isSuccessful)) : Booked last' a' := by
  rw [aggregate] at haggregate
  split at haggregate
  · split at haggregate
    · -- a new key
      simp only [bind_eq_some_iff] at haggregate
      obtain ⟨a₁, ha₁, a₂, ha₂, heq⟩ := haggregate
      cases heq
      exact booked_discardGlobalLessPopularObjects
        (booked_addAggregatedUncachedPopularityForNewKey h hlast hother ha₁) ha₂
    · simp only [bind_eq_some_iff] at haggregate
      obtain ⟨⟨a₁, isSuccessful₁⟩, ha₁, -, -, a₂, ha₂, heq⟩ := haggregate
      cases heq
      exact booked_discardGlobalLessPopularObjects
        (booked_updateAggregatedUncachedPopularityForExistingKey h hlast hother ha₁) ha₂
  · split at haggregate
    · -- nothing is tracked and nothing was
      next hnone =>
      cases haggregate
      exact h.reweigh hnone hother
    · exact booked_updateAggregatedUncachedPopularityForExistingKey h hlast hother haggregate

theorem booked_updateAggregatedUncachedPopularity (h : Booked last a)
    (hlast : last' key = some (calcReward, isGlobalCached))
    (hother : ∀ key', key' ≠ key → last' key' = last key')
    {isSourceCached : Bool} {hint : Option FastPathHint}
    (hreport : a.updateAggregatedUncachedPopularity calcReward key source collected isGlobalCached
      isSourceCached = some (a', hint)) : Booked last' a' := by
  simp only [updateAggregatedUncachedPopularity, bind_eq_bind,
    Option.bind_eq_some_iff] at hreport
  obtain ⟨isPreserved, -, ⟨a₁, isSuccessful⟩, haggregate, hreport⟩ := hreport
  have hbooked := booked_aggregate h hlast hother haggregate
  split at hreport
  · simp only [Option.bind_eq_some_iff] at hreport
    obtain ⟨hint', -, heq⟩ := hreport
    cases heq
    exact hbooked
  · cases hreport
    exact hbooked

variable {edges : Edgeset}

/-- The preserved edgeset of a key is stored with its bytes, also a new one. -/
theorem Booked.preserve (h : Booked last a) {set set' : PreservedEdgeset}
    (hget : a.getOrCreatePreservedEdgeset key = some (set, sizeBytes))
    (hpreserve : set.preserveEdgesetForPlacement edges = some set') :
    Booked last { a with
      sizeBytes := sizeBytes
      perkeyPreservedEdgeset := a.perkeyPreservedEdgeset.insert key set' } := by
  refine ⟨h.linked, ?_⟩
  have hbytes := h.bytes
  have hsize := getSizeForCapacity_preserveEdgesetForPlacement hpreserve
  have hinsert := sumBy_insert
    (fun (key : Key) (set : PreservedEdgeset) => key.getKeyLength + set.getSizeForCapacity)
    a.perkeyPreservedEdgeset key set'
  simp only [bookedBytes, preservedBytes] at hbytes ⊢
  rw [getOrCreatePreservedEdgeset] at hget
  split at hget
  · next hset =>
    cases hget
    rw [hset, elim_some] at hinsert
    omega
  · next hnone =>
    simp only [bind_eq_some_iff] at hget
    obtain ⟨new, -, heq⟩ := hget
    cases heq
    rw [hnone, elim_none] at hinsert
    omega

theorem booked_clearPopularityForPlacement (h : Booked last a)
    (hlast : last' key = some (calcReward, isGlobalCached))
    (hother : ∀ key', key' ≠ key → last' key' = last key')
    (hclear : a.clearPopularityForPlacement calcReward key edges isGlobalCached = some a') :
    Booked last' a' := by
  simp only [clearPopularityForPlacement, bind_eq_bind, Option.bind_eq_some_iff] at hclear
  obtain ⟨found, hfound, hclear⟩ := hclear
  cases found with
  | none =>
    cases hclear
    refine h.reweigh ?_ hother
    rw [getAggregatedUncachedPopularity] at hfound
    split at hfound
    · next hnone => exact hnone
    · simp [Option.bind_eq_some_iff] at hfound
  | some existing =>
    simp only [Option.bind_eq_some_iff] at hclear
    obtain ⟨⟨updated, isEmpty⟩, hupdated, hreplace⟩ := hclear
    have hkey := (AggregatedUncachedPopularity.clearForPlacement_key hupdated).trans
      (h.key_eq hfound)
    exact booked_updateBenefitPopularityForExistingKey h hkey hlast hother hreplace

theorem booked_updatePreservedEdgesetForPlacement (h : Booked last a)
    (hlast : last' key = some (calcReward, isGlobalCached))
    (hother : ∀ key', key' ≠ key → last' key' = last key')
    (hplace : a.updatePreservedEdgesetForPlacement calcReward key edges isGlobalCached = some a') :
    Booked last' a' := by
  simp only [updatePreservedEdgesetForPlacement, bind_eq_some_iff] at hplace
  obtain ⟨⟨set, sizeBytes⟩, hget, set', hpreserve, a₁, hclear, hdiscard⟩ := hplace
  have hbooked := booked_clearPopularityForPlacement (h.preserve hget hpreserve) hlast hother hclear
  exact booked_discardGlobalLessPopularObjects hbooked hdiscard

/-- A preserved edgeset and its key fit into the byte count. -/
theorem Booked.preservedBytes_le (h : Booked last a) {set : PreservedEdgeset}
    (hset : a.perkeyPreservedEdgeset.lookup key = some set) :
    preservedBytes (a.perkeyPreservedEdgeset.erase key) +
        (key.getKeyLength + set.getSizeForCapacity) = preservedBytes a.perkeyPreservedEdgeset ∧
      key.getKeyLength + set.getSizeForCapacity ≤ a.sizeBytes := by
  have herase := sumBy_erase
    (fun (key : Key) (set : PreservedEdgeset) => key.getKeyLength + set.getSizeForCapacity)
    a.perkeyPreservedEdgeset key
  rw [hset, elim_some] at herase
  have hbytes := h.bytes
  simp only [bookedBytes, preservedBytes] at hbytes ⊢
  omega

theorem booked_clearPreservedEdgesetAfterAdmission (h : Booked last a)
    (hclear : a.clearPreservedEdgesetAfterAdmission key source = some a') : Booked last a' := by
  rw [clearPreservedEdgesetAfterAdmission] at hclear
  split at hclear
  · cases hclear
    exact h
  · next set hset =>
    simp only [bind_eq_some_iff] at hclear
    obtain ⟨⟨set', isEmpty⟩, hnode, hclear⟩ := hclear
    have hsize := getSizeForCapacity_clearPreservedEdgeNode hnode
    have hbytes := h.bytes
    split at hclear
    · -- the last edge: the edgeset and its key are released
      cases hclear
      refine ⟨h.linked, ?_⟩
      have herase := (h.preservedBytes_le hset).1
      simp only [bookedBytes] at hbytes ⊢
      omega
    · cases hclear
      refine ⟨h.linked, ?_⟩
      have hinsert := sumBy_insert
        (fun (key : Key) (set : PreservedEdgeset) => key.getKeyLength + set.getSizeForCapacity)
        a.perkeyPreservedEdgeset key set'
      rw [hset, elim_some] at hinsert
      simp only [bookedBytes, preservedBytes] at hbytes ⊢
      omega

end Steps

/-! ## Any mix of operations -/

/-- The weightings after an operation. -/
def weightingAfter (op : Operation) (last : Key → Option (CalcReward × Bool)) (key : Key) :
    Option (CalcReward × Bool) :=
  (op.weighting key).or (last key)

theorem lastWeighting_cons (op : Operation) (out : Option FastPathHint)
    (tr : List (Operation × Option FastPathHint)) :
    lastWeighting ((op, out) :: tr) = weightingAfter op (lastWeighting tr) := by
  funext key
  simp only [lastWeighting, weightingAfter, findSome?_cons]
  cases op.weighting key with
  | none => rfl
  | some weighting => rfl

variable {a : PopularityAggregator}

variable {last : Key → Option (CalcReward × Bool)}

/-- One operation keeps the books. -/
theorem booked_step {a' : PopularityAggregator}
    {op : Operation} {out : Option FastPathHint} (h : Booked last a)
    (hstep : step a op = some (a', out)) : Booked (weightingAfter op last) a' := by
  cases op with
  | updateAggregatedUncachedPopularity calcReward key source collected isGlobal isSource =>
    refine booked_updateAggregatedUncachedPopularity h ?_ (fun key' hkey => ?_) hstep
    · simp [weightingAfter, Operation.weighting]
    · simp [weightingAfter, Operation.weighting, hkey]
  | updatePreservedEdgesetForPlacement calcReward key edges isGlobal =>
    simp only [step, map_eq_some_iff] at hstep
    obtain ⟨a₁, ha₁, heq⟩ := hstep
    cases heq
    refine booked_updatePreservedEdgesetForPlacement h ?_ (fun key' hkey => ?_) ha₁
    · simp [weightingAfter, Operation.weighting]
    · simp [weightingAfter, Operation.weighting, hkey]
  | clearPreservedEdgesetAfterAdmission key source =>
    simp only [step, map_eq_some_iff] at hstep
    obtain ⟨a₁, ha₁, heq⟩ := hstep
    cases heq
    exact booked_clearPreservedEdgesetAfterAdmission h ha₁
  | discardGlobalLessPopularObjects =>
    simp only [step, map_eq_some_iff] at hstep
    obtain ⟨a₁, ha₁, heq⟩ := hstep
    cases heq
    exact booked_discardGlobalLessPopularObjects h ha₁

/-- The books are exact after any sequence of operations. -/
theorem booked_of_runs {edgecnt capacityBytes topkEdgecnt : Nat}
    {tr : List (Operation × Option FastPathHint)}
    (h : Runs step anyAction (create edgecnt capacityBytes topkEdgecnt) tr a) :
    Booked (lastWeighting tr) a := by
  refine h.trace_invariant (P := fun tr a => Booked (lastWeighting tr) a)
    (booked_create edgecnt capacityBytes topkEdgecnt) ?_
  intro tr a op a' out hbooked _ hstep
  rw [lastWeighting_cons]
  exact booked_step hbooked hstep

/-- An operation changes the weighting of one key. -/
theorem update_weighting (last : Key → Option (CalcReward × Bool)) (key : Key)
    (weighting : CalcReward × Bool) :
    Function.update last key (some weighting) key = some weighting ∧
      ∀ key', key' ≠ key → Function.update last key (some weighting) key' = last key' :=
  ⟨Function.update_self .., fun _ hkey => Function.update_of_ne hkey ..⟩

/-- From a state with exact books no operation subtracts more than there is. -/
theorem Booked.noUnderflow (h : Booked last a) (op : Operation) : NoUnderflow a op := by
  -- the state before the discards is again booked, under the weighting of the operation
  cases op with
  | updateAggregatedUncachedPopularity calcReward key source collected isGlobal isSource =>
    obtain ⟨hlast, hother⟩ := update_weighting last key (calcReward, isGlobal)
    refine ⟨h.existingKeyFits key, fun a₁ hadd => ?_, fun a₁ isSuccessful hupdate => ?_⟩
    · apply Booked.globalDiscardFits
      exact booked_addAggregatedUncachedPopularityForNewKey h hlast hother hadd
    · apply Booked.globalDiscardFits
      exact booked_updateAggregatedUncachedPopularityForExistingKey h hlast hother hupdate
  | updatePreservedEdgesetForPlacement calcReward key edges isGlobal =>
    obtain ⟨hlast, hother⟩ := update_weighting last key (calcReward, isGlobal)
    intro set sizeBytes set' hget hpreserve
    have hbooked := h.preserve hget hpreserve
    refine ⟨hbooked.existingKeyFits key, fun a₁ hclear => ?_⟩
    apply Booked.globalDiscardFits
    exact booked_clearPopularityForPlacement hbooked hlast hother hclear
  | clearPreservedEdgesetAfterAdmission key source =>
    exact fun set hset => (h.preservedBytes_le hset).2
  | discardGlobalLessPopularObjects => exact h.globalDiscardFits

/-- After any sequence of operations: the iterator that the table has for a key denotes the only
entry of this key, which lies under the maximum admission benefit of its popularity for the latest
weighting of the key; every entry of the multimap has its iterator in the table; the multimap is in
ascending order of the benefits; the byte count is the sum over everything stored; and no operation
subtracts more than the byte count. -/
theorem bookkeeping_exact {edgecnt capacityBytes topkEdgecnt : Nat}
    {tr : List (Operation × Option FastPathHint)} {a : PopularityAggregator}
    (h : Runs step anyAction (create edgecnt capacityBytes topkEdgecnt) tr a) :
    (∀ key id, a.perkeyBenefitPopularityTable.lookup key = some id →
      ∃ entry, a.entry? id = some entry ∧ entry.popularity.key = key ∧
        (∃ calcReward isGlobalCached,
          lastWeighting tr key = some (calcReward, isGlobalCached) ∧
          entry.popularity.calcMaxAdmissionBenefit calcReward isGlobalCached =
            some entry.maxAdmissionBenefit) ∧
        a.benefitPopularityMultimap.filter (fun e => e.popularity.key = key) = [entry]) ∧
    (∀ entry ∈ a.benefitPopularityMultimap,
      a.perkeyBenefitPopularityTable.lookup entry.popularity.key = some entry.id) ∧
    Ascending (fun entry : BenefitPopularity => entry.maxAdmissionBenefit)
      a.benefitPopularityMultimap ∧
    a.sizeBytes = bookedBytes a ∧ ∀ op, NoUnderflow a op := by
  have hbooked := booked_of_runs h
  have hlinked := hbooked.linked
  refine ⟨fun key id hid => ?_, hlinked.indexed, hlinked.ordered, hbooked.bytes,
    hbooked.noUnderflow⟩
  obtain ⟨entry, hentry, hentryid, hkey⟩ := hlinked.denotes key id hid
  refine ⟨entry, ?_, hkey, ?_, ?_⟩
  · cases hfind : a.entry? id with
    | none =>
      have hnone := List.find?_eq_none.1 hfind entry hentry
      simp [hentryid] at hnone
    | some found =>
      have hfoundid : found.id = id := by simpa using List.find?_some hfind
      rw [hlinked.eq_of_id (List.mem_of_find?_eq_some hfind) hentry (hfoundid.trans hentryid.symm)]
  · rw [← hkey]
    exact hlinked.weighed entry hentry
  · -- the entries of the key are all this one, and entries are distinct
    have hnodup : a.benefitPopularityMultimap.Nodup := List.Nodup.of_map _ hlinked.distinct
    apply List.perm_singleton.1
    refine (List.perm_ext_iff_of_nodup (hnodup.filter _) (List.nodup_singleton entry)).2 ?_
    intro e
    rw [List.mem_filter, List.mem_singleton, decide_eq_true_eq]
    constructor
    · rintro ⟨he, hekey⟩
      exact hlinked.eq_of_key he hentry (hekey.trans hkey.symm)
    · rintro rfl
      exact ⟨hentry, hkey⟩

/-- Two edges report a key, and one of them is preserved for it: the entry was replaced twice. -/
theorem bookkeeping_exact_preserved :
    ∃ tr a, Runs step anyAction (create 3 1000 2) tr a ∧
      a.perkeyBenefitPopularityTable.lookup ⟨[7]⟩ = some 2 ∧
      (∃ entry, a.entry? 2 = some entry ∧ entry.popularity.key = ⟨[7]⟩) ∧
      a.sizeBytes = bookedBytes a ∧ a.sizeBytes = 37 := by
  have hexec : (exec step anyAction (create 3 1000 2)
      [.updateAggregatedUncachedPopularity (fun p _ q => p + q) ⟨[7]⟩ 0 ⟨true, 4, 10⟩ false false,
        .updateAggregatedUncachedPopularity (fun p _ q => p + q) ⟨[7]⟩ 1 ⟨true, 6, 10⟩ false false,
        .updatePreservedEdgesetForPlacement (fun p _ q => p + q) ⟨[7]⟩ [1] false]).any
      (fun a => decide (a.perkeyBenefitPopularityTable.lookup ⟨[7]⟩ = some 2) &&
        decide (a.sizeBytes = 37)) = true := by
    decide +kernel
  obtain ⟨tr, a, hrun, -, ha⟩ := exists_runs_of_any hexec
  rw [Bool.and_eq_true, decide_eq_true_eq, decide_eq_true_eq] at ha
  obtain ⟨hdenotes, -, -, hbytes, -⟩ := bookkeeping_exact hrun
  obtain ⟨entry, hentry, hkey, -⟩ := hdenotes ⟨[7]⟩ 2 ha.1
  exact ⟨tr, a, hrun, ha.1, ⟨entry, hentry, hkey⟩, hbytes, ha.2⟩

end Covered.Popularity.PopularityAggregator
