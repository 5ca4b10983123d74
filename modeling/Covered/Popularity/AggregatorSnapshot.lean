import Covered.Lib.FieldStream
import Covered.Popularity.CapacityBound

/-!
# Snapshots of the popularity aggregator

The byte count is dumped as one number, the entries of the multimap one after the other. The number
of existing edges of a popularity and the table are not dumped but computed from what is loaded, and
the preserved edgesets are not dumped at all, since there should be none when a snapshot is taken.

`aggregator_restored_iff_of_runs`: a load restores the entries, their order and the table, and with
exact bytes if and only if there were indeed none, and the counts that are converted to 32 bits fit.
-/

set_option autoImplicit false

namespace Covered.Popularity

open Common Lib Lib.ByteStream Lib.Checked Lib.Execution Lib.FieldStream Lib.SortBy List
open AggregatedUncachedPopularity

/-! ## Fields -/

/-- One field of a snapshot: a number with the width of its variable, the number of elements of a
container, which is converted to 32 bits, a popularity or a benefit, a bit, a character. -/
inductive Field where
  | number (n : Nat)
  | count (n : UInt32)
  | real (x : ℚ)
  | bit (b : Bool)
  | char (c : UInt8)

namespace Field

def number? : Field → Option Nat
  | number n => some n
  | _ => none

def count? : Field → Option UInt32
  | count n => some n
  | _ => none

def real? : Field → Option ℚ
  | real x => some x
  | _ => none

def bit? : Field → Option Bool
  | bit b => some b
  | _ => none

def char? : Field → Option UInt8
  | char c => some c
  | _ => none

end Field

/-! ## Dump and load -/

/-- A key is written as its length and its characters. -/
def serializeKey (key : Key) : List Field :=
  .count (UInt32.ofNat key.keystr.length) :: key.keystr.map .char

def deserializeKey : Reader Field Key := do
  let keysize ← next Field.count?
  let keystr ← readMany (next Field.char?) keysize.toNat
  return ⟨keystr⟩

namespace AggregatedUncachedPopularity

def dumpPair (pair : Nat × Popularity) : List Field := [.number pair.1, .real pair.2]

def loadPair : Reader Field (Nat × Popularity) := do
  let edgeIdx ← next Field.number?
  let popularity ← next Field.real?
  return (edgeIdx, popularity)

def dumpAggregatedUncachedPopularity (p : AggregatedUncachedPopularity) : List Field :=
  let bitmapSize := UInt32.ofNat p.bitmap.length
  serializeKey p.key ++ (.number p.objectSize :: .real p.sumLocalUncachedPopularity ::
    .count (UInt32.ofNat p.topk.length) :: (p.topk.flatMap dumpPair ++
      .count bitmapSize :: (p.bitmap.take bitmapSize.toNat).map .bit))

/-- Load a popularity; the number of existing edges is calculated from the bitmap. -/
def loadAggregatedUncachedPopularity : Reader Field AggregatedUncachedPopularity := do
  let key ← deserializeKey
  let objectSize ← next Field.number?
  let sumLocalUncachedPopularity ← next Field.real?
  let topkListSize ← next Field.count?
  let topk ← readMany loadPair topkListSize.toNat
  let bitmapSize ← next Field.count?
  let bitmap ← readMany (next Field.bit?) bitmapSize.toNat
  return {
    key, objectSize, sumLocalUncachedPopularity, topk, bitmap
    existEdgecnt := bitmap.count true }

end AggregatedUncachedPopularity

namespace PopularityAggregator

def dumpEntry (entry : BenefitPopularity) : List Field :=
  .real entry.maxAdmissionBenefit :: entry.popularity.dumpAggregatedUncachedPopularity

def dumpPopularityAggregator (a : PopularityAggregator) : List Field :=
  .number a.sizeBytes :: .count (UInt32.ofNat a.benefitPopularityMultimap.length) ::
    a.benefitPopularityMultimap.flatMap dumpEntry

/-- Insert a loaded popularity; the table gets an iterator to it unless the key has one. -/
def insertLoaded (a : PopularityAggregator) (benefit : DeltaReward)
    (popularity : AggregatedUncachedPopularity) : PopularityAggregator :=
  { a with
    nextId := a.nextId + 1
    benefitPopularityMultimap :=
      a.benefitPopularityMultimap.orderedInsert
        (fun e e' => e.maxAdmissionBenefit < e'.maxAdmissionBenefit) ⟨a.nextId, benefit, popularity⟩
    perkeyBenefitPopularityTable :=
      if a.perkeyBenefitPopularityTable.lookup popularity.key = none then
        a.perkeyBenefitPopularityTable.insert popularity.key a.nextId
      else a.perkeyBenefitPopularityTable }

/-- The loop over the pairs of the snapshot. -/
def loadPairs : Nat → PopularityAggregator → Reader Field PopularityAggregator
  | 0, a => pure a
  | pairCnt + 1, a => do
      let benefit ← next Field.real?
      let popularity ← AggregatedUncachedPopularity.loadAggregatedUncachedPopularity
      loadPairs pairCnt (a.insertLoaded benefit popularity)

/-- Load a snapshot in place of what the aggregator has. -/
def loadPopularityAggregator (a : PopularityAggregator) : Reader Field PopularityAggregator := do
  let sizeBytes ← next Field.number?
  let pairCnt ← next Field.count?
  let loaded ← loadPairs pairCnt.toNat { a with
    sizeBytes
    benefitPopularityMultimap := []
    perkeyBenefitPopularityTable := ∅ }
  return { loaded with perkeyPreservedEdgeset := ∅ }

end PopularityAggregator

/-! ## What is dumped is loaded -/

theorem toNat_ofNat_of_lt {n : Nat} (h : n < 2 ^ 32) : (UInt32.ofNat n).toNat = n := by
  rw [UInt32.toNat_ofNat']
  exact Nat.mod_eq_of_lt h

theorem reads_deserializeKey {key : Key} (h : key.keystr.length < 2 ^ 32) :
    Reads deserializeKey key (serializeKey key) := by
  have hchars : Reads (readMany (next Field.char?) key.keystr.length) key.keystr
      (key.keystr.map .char) := reads_readMany_next fun _ => rfl
  refine Reads.field rfl ?_
  rw [toNat_ofNat_of_lt h]
  exact hchars.map Key.mk

namespace AggregatedUncachedPopularity

theorem reads_loadPair (pair : Nat × Popularity) : Reads loadPair pair (dumpPair pair) :=
  .field rfl (.field rfl (reads_pure pair))

/-- What the aggregator's operations keep of a popularity, whatever is reported. -/
structure Countable (edgecnt : Nat) (p : AggregatedUncachedPopularity) : Prop extends
    TopkBits p where
  length_eq : p.bitmap.length = edgecnt
  edgecnt_eq : p.existEdgecnt = p.bitmap.count true

variable {edgecnt : Nat} {p p' : AggregatedUncachedPopularity}

/-- The list is not longer than the bitmap. -/
theorem Countable.length_topk_le (h : p.Countable edgecnt) : p.topk.length ≤ edgecnt := by
  have hcount := length_le_count h.distinct fun e he => by
    obtain ⟨pair, hpair, rfl⟩ := mem_map.1 he
    exact h.bit_set pair hpair
  rw [length_map] at hcount
  exact hcount.trans (count_le_length.trans_eq h.length_eq)

theorem reads_load (h : p.Countable edgecnt) (hedges : edgecnt < 2 ^ 32)
    (hkey : p.key.keystr.length < 2 ^ 32) :
    Reads loadAggregatedUncachedPopularity p p.dumpAggregatedUncachedPopularity := by
  have hsize : (UInt32.ofNat p.bitmap.length).toNat = p.bitmap.length := by
    rw [h.length_eq]
    exact toNat_ofNat_of_lt hedges
  have htopk : (UInt32.ofNat p.topk.length).toNat = p.topk.length :=
    toNat_ofNat_of_lt (lt_of_le_of_lt h.length_topk_le hedges)
  have hpairs : Reads (readMany loadPair p.topk.length) p.topk (p.topk.flatMap dumpPair) := by
    have hmany : Reads (readMany loadPair p.topk.length) (p.topk.map id)
        (p.topk.flatMap dumpPair) := reads_readMany fun pair _ => reads_loadPair pair
    rw [map_id] at hmany
    exact hmany
  have hbits : Reads (readMany (next Field.bit?) p.bitmap.length) p.bitmap (p.bitmap.map .bit) :=
    reads_readMany_next fun _ => rfl
  rw [dumpAggregatedUncachedPopularity, hsize, take_length]
  refine (reads_deserializeKey hkey).andThen (.field rfl (.field rfl (.field rfl ?_)))
  rw [htopk]
  refine hpairs.andThen (.field rfl ?_)
  rw [hsize]
  have hlast := hbits.map fun bitmap => { p with bitmap, existEdgecnt := bitmap.count true }
  rw [← h.edgecnt_eq] at hlast
  exact hlast

/-! ## The number of existing edges -/

theorem countable_create (key : Key) (edgecnt : Nat) : (create key edgecnt).Countable edgecnt where
  toTopkBits := topkBits_create key edgecnt
  length_eq := length_replicate
  edgecnt_eq := by simp [create, count_replicate]

theorem Countable.update (h : p.Countable edgecnt) {sourceEdgeIdx topkEdgecnt objectSize : Nat}
    {popularity : Popularity}
    (hupdate : p.update sourceEdgeIdx popularity topkEdgecnt objectSize = some p') :
    p'.Countable edgecnt := by
  obtain ⟨hbits, hbitmap⟩ := update_bits h.toTopkBits hupdate
  refine ⟨hbits, by rw [hbitmap, length_set, h.length_eq], ?_⟩
  rw [hbitmap]
  simp only [AggregatedUncachedPopularity.update, Option.bind_eq_bind,
    Option.bind_eq_some_iff] at hupdate
  obtain ⟨isExisting, hbit, hupdate⟩ := hupdate
  cases isExisting with
  | false =>
    obtain ⟨_, -, heq⟩ := bind_eq_some_iff.1 hupdate
    cases heq
    rw [count_set_true hbit, ← h.edgecnt_eq]
  | true =>
    simp only [Bool.true_eq_false, if_false, Option.bind_eq_some_iff] at hupdate
    obtain ⟨original, -, topk, -, heq⟩ := hupdate
    cases heq
    rw [set_eq_self_of_getElem? hbit]
    exact h.edgecnt_eq

theorem Countable.clear (h : p.Countable edgecnt) {sourceEdgeIdx : Nat} {isEmpty isClear : Bool}
    (hclear : p.clear sourceEdgeIdx = some (p', isEmpty, isClear)) : p'.Countable edgecnt := by
  obtain ⟨hbits, hbitmap⟩ := clear_bits h.toTopkBits hclear
  refine ⟨hbits, by rw [hbitmap, length_set, h.length_eq], ?_⟩
  rw [hbitmap]
  simp only [AggregatedUncachedPopularity.clear, Option.bind_eq_bind,
    Option.bind_eq_some_iff] at hclear
  obtain ⟨isExisting, hbit, hclear⟩ := hclear
  cases isExisting with
  | false =>
    cases hclear
    rw [set_eq_self_of_getElem? hbit]
    exact h.edgecnt_eq
  | true =>
    simp only [if_true, Option.bind_eq_some_iff] at hclear
    obtain ⟨original, -, -, -, heq⟩ := hclear
    cases heq
    rw [count_set_false hbit, ← h.edgecnt_eq]

theorem Countable.clearForPlacement (h : p.Countable edgecnt) {edges : Edgeset} {isEmpty : Bool}
    (hclear : p.clearForPlacement edges = some (p', isEmpty)) : p'.Countable edgecnt := by
  induction edges generalizing p with
  | nil =>
    cases hclear
    exact h
  | cons first rest ih =>
    simp only [clearForPlacement, bind_eq_some_iff] at hclear
    obtain ⟨⟨p₁, isEmpty₁, isClear₁⟩, hfirst, hrest⟩ := hclear
    exact ih (h.clear hfirst) hrest

end AggregatedUncachedPopularity

namespace PopularityAggregator

/-- The aggregator has this number of edges, and all that it stores is countable. -/
structure Countable (edgecnt : Nat) (a : PopularityAggregator) : Prop where
  edgecnt_eq : a.edgecnt = edgecnt
  fresh : Fresh a
  stored : ∀ key p, Stored a key p → p.Countable edgecnt

theorem countable_create (edgecnt capacityBytes topkEdgecnt : Nat) :
    Countable edgecnt (create edgecnt capacityBytes topkEdgecnt) where
  edgecnt_eq := rfl
  fresh := (invariant_create edgecnt capacityBytes topkEdgecnt).fresh
  stored := by simp [create, Stored]

section Steps

variable {edgecnt : Nat} {a a' : PopularityAggregator} {calcReward : CalcReward} {key : Key}
  {p : AggregatedUncachedPopularity} {isGlobalCached : Bool}

section Countable

variable (h : Countable edgecnt a)
include h

theorem Countable.replaces (hreplaces : Replaces a key p a') (hedgecnt : a'.edgecnt = a.edgecnt)
    (hp : p.Countable edgecnt) : Countable edgecnt a' where
  edgecnt_eq := hedgecnt.trans h.edgecnt_eq
  fresh := hreplaces.fresh
  stored key' p' hp' := by
    rcases hreplaces.stored key' p' hp' with ⟨-, rfl⟩ | ⟨-, hold⟩
    · exact hp
    · exact h.stored key' p' hold

theorem Countable.discards (hdiscards : Discards a a')
    (hedgecnt : a'.edgecnt = a.edgecnt) : Countable edgecnt a' where
  edgecnt_eq := hedgecnt.trans h.edgecnt_eq
  fresh := hdiscards.fresh
  stored key' p' hp' := h.stored key' p' (hdiscards.stored key' p' hp')

/-- The preserved edgesets do not matter. -/
theorem Countable.withPreserved (sizeBytes : Nat) (preserved : UnorderedMap Key PreservedEdgeset) :
    Countable edgecnt
      { a with sizeBytes := sizeBytes, perkeyPreservedEdgeset := preserved } where
  edgecnt_eq := h.edgecnt_eq
  fresh := ⟨h.fresh.entries_lt, h.fresh.table_lt⟩
  stored := h.stored

theorem Countable.addBenefitPopularityForNewKey (hp : p.Countable edgecnt)
    (hadd : a.addBenefitPopularityForNewKey calcReward key p isGlobalCached = some a') :
    Countable edgecnt a' := by
  refine h.replaces (replaces_addBenefitPopularityForNewKey h.fresh hadd) ?_ hp
  simp only [PopularityAggregator.addBenefitPopularityForNewKey, bind_eq_some_iff] at hadd
  obtain ⟨-, -, benefit, -, heq⟩ := hadd
  cases heq
  rfl

theorem Countable.updateBenefitPopularityForExistingKey (hp : p.Countable edgecnt) {isEmpty : Bool}
    (hupdate : a.updateBenefitPopularityForExistingKey calcReward key p isEmpty isGlobalCached =
      some a') : Countable edgecnt a' := by
  refine h.replaces (replaces_updateBenefitPopularityForExistingKey h.fresh hupdate) ?_ hp
  simp only [PopularityAggregator.updateBenefitPopularityForExistingKey, Option.bind_eq_bind,
    Option.bind_eq_some_iff] at hupdate
  obtain ⟨id, -, old, -, hupdate⟩ := hupdate
  split at hupdate
  · cases hupdate
    rfl
  · simp only [Option.bind_eq_some_iff] at hupdate
    obtain ⟨benefit, -, heq⟩ := hupdate
    cases heq
    rfl

theorem Countable.discardGlobalLessPopularObjects
    (hdiscard : a.discardGlobalLessPopularObjects = some a') : Countable edgecnt a' := by
  refine h.discards (discards_discardGlobalLessPopularObjects h.fresh hdiscard) ?_
  simp only [PopularityAggregator.discardGlobalLessPopularObjects, bind_eq_some_iff] at hdiscard
  obtain ⟨left, -, heq⟩ := hdiscard
  cases heq
  rfl

end Countable

variable {isTracked isSuccessful : Bool}

theorem Countable.updateAggregatedUncachedPopularityForExistingKey (h : Countable edgecnt a)
    {source objectSize : Nat} {popularity : Popularity}
    (hupdate : a.updateAggregatedUncachedPopularityForExistingKey calcReward key source isTracked
      popularity objectSize isGlobalCached = some (a', isSuccessful)) : Countable edgecnt a' := by
  simp only [PopularityAggregator.updateAggregatedUncachedPopularityForExistingKey,
    Option.bind_eq_bind, Option.bind_eq_some_iff] at hupdate
  obtain ⟨found, hfound, existing, rfl, hupdate⟩ := hupdate
  have hexisting := h.stored key existing (stored_of_getAggregatedUncachedPopularity hfound)
  split at hupdate
  · simp only [Option.bind_eq_some_iff] at hupdate
    obtain ⟨updated, hupdated, a₁, ha₁, heq⟩ := hupdate
    cases heq
    exact h.updateBenefitPopularityForExistingKey (hexisting.update hupdated) ha₁
  · simp only [Option.bind_eq_some_iff] at hupdate
    obtain ⟨⟨updated, isEmpty, isClear⟩, hupdated, a₁, ha₁, heq⟩ := hupdate
    cases heq
    exact h.updateBenefitPopularityForExistingKey (hexisting.clear hupdated) ha₁

theorem Countable.aggregate (h : Countable edgecnt a) {source : Nat}
    {collected : CollectedPopularity}
    (haggregate : a.aggregate calcReward key source collected isTracked isGlobalCached =
      some (a', isSuccessful)) : Countable edgecnt a' := by
  rw [PopularityAggregator.aggregate] at haggregate
  split at haggregate
  · split at haggregate
    · -- a new key
      simp only [addAggregatedUncachedPopularityForNewKey, bind_eq_some_iff] at haggregate
      obtain ⟨a₁, ⟨new, hnew, -, -, hadd⟩, a₂, ha₂, heq⟩ := haggregate
      cases heq
      rw [h.edgecnt_eq] at hnew
      have hcountable := (AggregatedUncachedPopularity.countable_create key edgecnt).update hnew
      exact (h.addBenefitPopularityForNewKey hcountable hadd).discardGlobalLessPopularObjects ha₂
    · simp only [bind_eq_some_iff] at haggregate
      obtain ⟨⟨a₁, isSuccessful₁⟩, ha₁, -, -, a₂, ha₂, heq⟩ := haggregate
      cases heq
      have h₁ := h.updateAggregatedUncachedPopularityForExistingKey ha₁
      exact h₁.discardGlobalLessPopularObjects ha₂
  · split at haggregate
    · cases haggregate
      exact h
    · exact h.updateAggregatedUncachedPopularityForExistingKey haggregate

theorem Countable.clearPopularityForPlacement (h : Countable edgecnt a) {edges : Edgeset}
    (hclear : a.clearPopularityForPlacement calcReward key edges isGlobalCached = some a') :
    Countable edgecnt a' := by
  simp only [PopularityAggregator.clearPopularityForPlacement, Option.bind_eq_bind,
    Option.bind_eq_some_iff] at hclear
  obtain ⟨found, hfound, hclear⟩ := hclear
  cases found with
  | none =>
    cases hclear
    exact h
  | some existing =>
    simp only [Option.bind_eq_some_iff] at hclear
    obtain ⟨⟨updated, isEmpty⟩, hupdated, hreplace⟩ := hclear
    have hexisting := h.stored key existing (stored_of_getAggregatedUncachedPopularity hfound)
    exact h.updateBenefitPopularityForExistingKey (hexisting.clearForPlacement hupdated) hreplace

end Steps

/-- An operation keeps all popularities countable. -/
theorem countable_step {edgecnt : Nat} {a a' : PopularityAggregator} {op : Operation}
    {out : Option FastPathHint} (h : Countable edgecnt a) (hstep : step a op = some (a', out)) :
    Countable edgecnt a' := by
  cases op with
  | updateAggregatedUncachedPopularity calcReward key source collected isGlobal isSource =>
    simp only [step, updateAggregatedUncachedPopularity, Option.bind_eq_bind,
      Option.bind_eq_some_iff] at hstep
    obtain ⟨isPreserved, -, ⟨a₁, isSuccessful⟩, haggregate, hstep⟩ := hstep
    have h₁ := h.aggregate haggregate
    split at hstep
    · simp only [Option.bind_eq_some_iff] at hstep
      obtain ⟨hint, -, heq⟩ := hstep
      cases heq
      exact h₁
    · cases hstep
      exact h₁
  | updatePreservedEdgesetForPlacement calcReward key edges isGlobal =>
    simp only [step, Option.map_eq_some_iff, updatePreservedEdgesetForPlacement,
      bind_eq_some_iff] at hstep
    obtain ⟨a₁, ⟨⟨set, sizeBytes⟩, -, set', -, a₂, hclear, hdiscard⟩, heq⟩ := hstep
    cases heq
    have h₂ := (h.withPreserved sizeBytes _).clearPopularityForPlacement hclear
    exact h₂.discardGlobalLessPopularObjects hdiscard
  | clearPreservedEdgesetAfterAdmission key source =>
    simp only [step, Option.map_eq_some_iff, clearPreservedEdgesetAfterAdmission] at hstep
    obtain ⟨a₁, ha₁, heq⟩ := hstep
    cases heq
    split at ha₁
    · cases ha₁
      exact h
    · simp only [bind_eq_some_iff] at ha₁
      obtain ⟨⟨set', isEmpty⟩, -, ha₁⟩ := ha₁
      split at ha₁ <;> cases ha₁
      · exact h.withPreserved _ _
      · exact h.withPreserved a.sizeBytes _
  | discardGlobalLessPopularObjects =>
    simp only [step, Option.map_eq_some_iff] at hstep
    obtain ⟨a₁, ha₁, heq⟩ := hstep
    cases heq
    exact h.discardGlobalLessPopularObjects ha₁

/-! ## Entries and table -/

/-- What is dumped of an entry. -/
def pairOf (entry : BenefitPopularity) : DeltaReward × AggregatedUncachedPopularity :=
  (entry.maxAdmissionBenefit, entry.popularity)

/-- The table has exactly the iterators of the entries, each under the key of its popularity. -/
structure Inverse (multimap : List BenefitPopularity) (table : UnorderedMap Key Nat) : Prop where
  distinct : (multimap.map fun entry => entry.id).Nodup
  lookup_iff : ∀ key id, table.lookup key = some id ↔
    ∃ entry ∈ multimap, entry.id = id ∧ entry.popularity.key = key

section Inverse

variable {last : Key → Option (CalcReward × Bool)} {multimap multimap' : List BenefitPopularity}
  {table table' : UnorderedMap Key Nat} {nextId : Nat}

theorem Linked.inverse (h : Linked last multimap table nextId) : Inverse multimap table where
  distinct := h.distinct
  lookup_iff key id := by
    refine ⟨h.denotes key id, ?_⟩
    rintro ⟨entry, hentry, rfl, rfl⟩
    exact h.indexed entry hentry

/-- The bytes of the table are those of the keys of the entries. -/
theorem Inverse.tableBytes_eq (h : Inverse multimap table) : tableBytes table =
    (multimap.map fun entry => entry.popularity.key.getKeyLength + sizeofIterator).sum := by
  have hkeys : (multimap.map fun entry => entry.popularity.key).Nodup := by
    refine List.Nodup.map_on ?_ (List.Nodup.of_map _ h.distinct)
    intro e he e' he' hkey
    have hid := (h.lookup_iff e.popularity.key e.id).2 ⟨e, he, rfl, rfl⟩
    have hid' := (h.lookup_iff e.popularity.key e'.id).2 ⟨e', he', rfl, hkey.symm⟩
    exact inj_on_of_nodup_map h.distinct he he' (Option.some.inj (hid.symm.trans hid'))
  have hperm : table.keys.Perm (multimap.map fun entry => entry.popularity.key) := by
    refine table.perm_keys hkeys fun key => ?_
    rw [Option.isSome_iff_exists, mem_map]
    constructor
    · rintro ⟨id, hid⟩
      obtain ⟨entry, hentry, -, hkey⟩ := (h.lookup_iff key id).1 hid
      exact ⟨entry, hentry, hkey⟩
    · rintro ⟨entry, hentry, hkey⟩
      exact ⟨entry.id, (h.lookup_iff key entry.id).2 ⟨entry, hentry, rfl, hkey⟩⟩
  calc tableBytes table
      = (table.keys.map fun key => key.getKeyLength + sizeofIterator).sum := by
        rw [tableBytes, UnorderedMap.sumBy, AList.keys, keys, map_map]
        rfl
    _ = ((multimap.map fun entry => entry.popularity.key).map
          fun key => key.getKeyLength + sizeofIterator).sum := (hperm.map _).sum_eq
    _ = _ := by
        rw [map_map]
        rfl

/-- The same pairs have the same bytes. -/
theorem Inverse.bytes_eq (h : Inverse multimap table) (h' : Inverse multimap' table')
    (hpairs : multimap'.map pairOf = multimap.map pairOf) :
    multimapBytes multimap' + tableBytes table' = multimapBytes multimap + tableBytes table := by
  have hbytes : ∀ m : List BenefitPopularity, multimapBytes m =
      ((m.map pairOf).map fun pair => sizeofDeltaReward + pair.2.getSizeForCapacity).sum := by
    intro m
    rw [map_map]
    rfl
  have htable : ∀ m : List BenefitPopularity,
      (m.map fun entry => entry.popularity.key.getKeyLength + sizeofIterator).sum =
        ((m.map pairOf).map fun pair => pair.2.key.getKeyLength + sizeofIterator).sum := by
    intro m
    rw [map_map]
    rfl
  rw [h.tableBytes_eq, h'.tableBytes_eq, hbytes, hbytes, htable, htable, hpairs]

theorem preservedBytes_eq_zero_iff {preserved : UnorderedMap Key PreservedEdgeset} :
    preservedBytes preserved = 0 ↔ preserved.entries = [] := by
  rw [preservedBytes, UnorderedMap.sumBy]
  constructor
  · intro hzero
    cases hentries : preserved.entries with
    | nil => rfl
    | cons pair rest =>
      -- an edgeset has at least one byte
      rw [hentries, map_cons, sum_cons, PreservedEdgeset.getSizeForCapacity] at hzero
      omega
  · intro hnil
    rw [hnil]
    rfl

end Inverse

/-- With exact books a discard ends if the preserved edgesets fit, and removes nothing if all
does. -/
theorem Booked.discard {last : Key → Option (CalcReward × Bool)} {a : PopularityAggregator}
    (h : Booked last a)
    (hpreserved : preservedBytes a.perkeyPreservedEdgeset ≤ a.popularityAggregationCapacityBytes) :
    ∃ a', a.discardGlobalLessPopularObjects = some a' ∧
      (bookedBytes a ≤ a.popularityAggregationCapacityBytes → a' = a) := by
  obtain ⟨a', ha'⟩ := (discardGlobalLessPopularObjects_iff h).2 hpreserved
  refine ⟨a', ha', fun hfits => (discardsLeast_of_discard h ha').unchanged ?_⟩
  rw [h.bytes]
  exact hfits

/-! ## A load -/

section Load

variable {last : Key → Option (CalcReward × Bool)} {a a' : PopularityAggregator} {edgecnt : Nat}

variable {entry : BenefitPopularity} {table : UnorderedMap Key Nat}

theorem mem_of_pairOf {multimap multimap' : List BenefitPopularity}
    (hpairs : multimap.map pairOf = multimap'.map pairOf)
    (hentry : entry ∈ multimap) :
    ∃ entry' ∈ multimap', entry'.maxAdmissionBenefit = entry.maxAdmissionBenefit ∧
      entry'.popularity = entry.popularity := by
  have hmem := mem_map_of_mem (f := pairOf) hentry
  rw [hpairs] at hmem
  obtain ⟨entry', hentry', heq⟩ := mem_map.1 hmem
  cases entry'
  cases entry
  cases heq
  exact ⟨_, hentry', rfl, rfl⟩

/-- An entry that is loaded after the ones before it comes last, with an iterator of its own. -/
theorem linked_insertLoaded {done todo : List BenefitPopularity} {nextId : Nat}
    (hsource : Linked last (done ++ entry :: todo) table nextId)
    (h : Linked last a.benefitPopularityMultimap a.perkeyBenefitPopularityTable a.nextId)
    (hdone : a.benefitPopularityMultimap.map pairOf = done.map pairOf)
    (ha' : a' = a.insertLoaded entry.maxAdmissionBenefit entry.popularity) :
    Linked last a'.benefitPopularityMultimap a'.perkeyBenefitPopularityTable a'.nextId ∧
      a'.benefitPopularityMultimap.map pairOf = (done ++ [entry]).map pairOf := by
  subst ha'
  have hmem : entry ∈ done ++ entry :: todo := mem_append_right done mem_cons_self
  have hnew : a.perkeyBenefitPopularityTable.lookup entry.popularity.key = none := by
    rw [Option.eq_none_iff_forall_ne_some]
    intro id hid
    obtain ⟨e, he, -, hkey⟩ := h.denotes _ id hid
    obtain ⟨d, hd, -, hpopularity⟩ := mem_of_pairOf hdone he
    -- the key would be dumped twice
    have heq : d = entry := by
      apply hsource.eq_of_key (mem_append_left _ hd) hmem
      rw [hpopularity, hkey]
    have hdistinct := List.Nodup.of_map _ hsource.distinct
    rw [nodup_append] at hdistinct
    exact hdistinct.2.2 d hd entry mem_cons_self heq
  obtain ⟨calcReward, isGlobalCached, hweighting, hbenefit⟩ := hsource.weighed entry hmem
  have hordered := pairwise_append.1 hsource.ordered
  have hlast : ∀ e ∈ a.benefitPopularityMultimap,
      e.maxAdmissionBenefit ≤ entry.maxAdmissionBenefit := by
    intro e he
    obtain ⟨d, hd, hbenefit, -⟩ := mem_of_pairOf hdone he
    rw [← hbenefit]
    exact hordered.2.2 d hd entry mem_cons_self
  constructor
  · refine h.insert ⟨a.nextId, entry.maxAdmissionBenefit, entry.popularity⟩ rfl hnew
      (fun key => ?_) hweighting hbenefit
    rw [insertLoaded, if_pos hnew]
    exact UnorderedMap.lookup_insert_eq _ _ _ _
  · have happend : a.benefitPopularityMultimap.orderedInsert
        (fun e e' : BenefitPopularity => e.maxAdmissionBenefit < e'.maxAdmissionBenefit)
        ⟨a.nextId, entry.maxAdmissionBenefit, entry.popularity⟩ =
          a.benefitPopularityMultimap ++ [_] := orderedInsert_eq_append hlast
    show (orderedInsert _ _ _).map pairOf = _
    rw [happend, map_append, map_append, hdone]
    rfl

/-- The loop loads the entries that are left, in their order. -/
theorem reads_loadPairs (hedges : edgecnt < 2 ^ 32) (done : List BenefitPopularity)
    {todo : List BenefitPopularity} {nextId : Nat}
    (hsource : Linked last (done ++ todo) table nextId)
    (hcountable : ∀ entry ∈ todo, entry.popularity.Countable edgecnt)
    (hkeys : ∀ entry ∈ todo, entry.popularity.key.keystr.length < 2 ^ 32)
    (h : Linked last a.benefitPopularityMultimap a.perkeyBenefitPopularityTable a.nextId)
    (hdone : a.benefitPopularityMultimap.map pairOf = done.map pairOf) :
    ∃ a', Reads (loadPairs todo.length a) a' (todo.flatMap dumpEntry) ∧
      Linked last a'.benefitPopularityMultimap a'.perkeyBenefitPopularityTable a'.nextId ∧
      a'.benefitPopularityMultimap.map pairOf = (done ++ todo).map pairOf ∧
      a'.sizeBytes = a.sizeBytes := by
  induction todo generalizing done a with
  | nil => exact ⟨a, reads_pure a, h, by rw [hdone, append_nil], rfl⟩
  | cons entry rest ih =>
    obtain ⟨hlinked, hpairs⟩ := linked_insertLoaded hsource h hdone rfl
    rw [append_cons] at hsource ⊢
    obtain ⟨a', hreads, hlinked', hpairs', hbytes⟩ := ih (done ++ [entry]) hsource
      (fun e he => hcountable e (mem_cons_of_mem entry he))
      (fun e he => hkeys e (mem_cons_of_mem entry he)) hlinked hpairs
    have hentry := reads_load
      (hcountable entry mem_cons_self) hedges (hkeys entry mem_cons_self)
    refine ⟨a', ?_, hlinked', hpairs', hbytes⟩
    rw [flatMap_cons, dumpEntry, cons_append]
    exact .field rfl (hentry.andThen hreads)

/-- What is loaded of a dump whose counts fit. -/
theorem reads_loadPopularityAggregator (hedges : edgecnt < 2 ^ 32) (h : Booked last a)
    (hcountable : ∀ entry ∈ a.benefitPopularityMultimap, entry.popularity.Countable edgecnt)
    (hlength : a.benefitPopularityMultimap.length < 2 ^ 32)
    (hkeys : ∀ entry ∈ a.benefitPopularityMultimap,
      entry.popularity.key.keystr.length < 2 ^ 32) (fresh : PopularityAggregator) :
    ∃ a', Reads (loadPopularityAggregator fresh) a' (dumpPopularityAggregator a) ∧
      Linked last a'.benefitPopularityMultimap a'.perkeyBenefitPopularityTable a'.nextId ∧
      a'.benefitPopularityMultimap.map pairOf = a.benefitPopularityMultimap.map pairOf ∧
      a'.sizeBytes = a.sizeBytes ∧ a'.perkeyPreservedEdgeset = ∅ := by
  have hempty : Linked last [] (∅ : UnorderedMap Key Nat) fresh.nextId :=
    ⟨by simp, by simp, nodup_nil, by simp, List.Pairwise.nil, by simp⟩
  obtain ⟨loaded, hreads, hlinked, hpairs, hbytes⟩ := reads_loadPairs
    (a := { fresh with
      sizeBytes := a.sizeBytes
      benefitPopularityMultimap := []
      perkeyBenefitPopularityTable := ∅ }) hedges [] h.linked hcountable hkeys hempty rfl
  refine ⟨{ loaded with perkeyPreservedEdgeset := ∅ }, ?_, hlinked, hpairs, hbytes, rfl⟩
  refine .field rfl (.field rfl ?_)
  rw [toNat_ofNat_of_lt hlength]
  exact hreads.map fun loaded => { loaded with perkeyPreservedEdgeset := ∅ }

end Load

/-! ## What a load can return -/

section Loaded

variable {a a' : PopularityAggregator} {s s' : List Field}

theorem length_lt_of_deserializeKey {key : Key} (h : deserializeKey s = some (key, s')) :
    key.keystr.length < 2 ^ 32 := by
  obtain ⟨keysize, t, -, h⟩ := bind_eq_some h
  obtain ⟨keystr, t', hchars, h⟩ := bind_eq_some h
  obtain ⟨rfl, -⟩ := pure_eq_some h
  rw [length_of_readMany hchars]
  exact keysize.toNat_lt

theorem length_lt_of_loadAggregatedUncachedPopularity {p : AggregatedUncachedPopularity}
    (h : loadAggregatedUncachedPopularity s = some (p, s')) :
    p.key.keystr.length < 2 ^ 32 := by
  obtain ⟨key, _, hkey, h⟩ := bind_eq_some h
  obtain ⟨_, _, -, h⟩ := bind_eq_some h
  obtain ⟨_, _, -, h⟩ := bind_eq_some h
  obtain ⟨_, _, -, h⟩ := bind_eq_some h
  obtain ⟨_, _, -, h⟩ := bind_eq_some h
  obtain ⟨_, _, -, h⟩ := bind_eq_some h
  obtain ⟨_, _, -, h⟩ := bind_eq_some h
  obtain ⟨rfl, -⟩ := pure_eq_some h
  exact length_lt_of_deserializeKey hkey

theorem loadPairs_spec {pairCnt : Nat} (h : loadPairs pairCnt a s = some (a', s')) :
    a'.benefitPopularityMultimap.length = a.benefitPopularityMultimap.length + pairCnt ∧
    a'.sizeBytes = a.sizeBytes ∧
    ∀ entry ∈ a'.benefitPopularityMultimap,
      entry ∈ a.benefitPopularityMultimap ∨ entry.popularity.key.keystr.length < 2 ^ 32 := by
  induction pairCnt generalizing a s with
  | zero =>
    obtain ⟨rfl, -⟩ := pure_eq_some h
    exact ⟨rfl, rfl, fun entry hentry => .inl hentry⟩
  | succ pairCnt ih =>
    obtain ⟨benefit, _, -, h⟩ := bind_eq_some h
    obtain ⟨popularity, _, hpopularity, h⟩ := bind_eq_some h
    obtain ⟨hlength, hbytes, hkeys⟩ := ih h
    have hperm := perm_orderedInsert
      (fun e e' : BenefitPopularity => e.maxAdmissionBenefit < e'.maxAdmissionBenefit)
      ⟨a.nextId, benefit, popularity⟩ a.benefitPopularityMultimap
    refine ⟨?_, hbytes, fun entry hentry => ?_⟩
    · rw [hlength, insertLoaded, hperm.length_eq, length_cons]
      omega
    · rcases hkeys entry hentry with hmem | hkey
      · rcases mem_cons.1 (hperm.mem_iff.1 hmem) with rfl | hold
        · exact .inr (length_lt_of_loadAggregatedUncachedPopularity hpopularity)
        · exact .inl hold
      · exact .inr hkey

/-- A load takes the byte count over and has no preserved edgesets. -/
theorem loadPopularityAggregator_spec {fresh : PopularityAggregator} {rest : List Field}
    (h : loadPopularityAggregator fresh (dumpPopularityAggregator a ++ rest) = some (a', s')) :
    a'.sizeBytes = a.sizeBytes ∧ a'.perkeyPreservedEdgeset = ∅ ∧
    a'.benefitPopularityMultimap.length < 2 ^ 32 ∧
    ∀ entry ∈ a'.benefitPopularityMultimap, entry.popularity.key.keystr.length < 2 ^ 32 := by
  obtain ⟨sizeBytes, _, hsize, h⟩ := bind_eq_some h
  cases hsize
  obtain ⟨pairCnt, _, -, h⟩ := bind_eq_some h
  obtain ⟨loaded, _, hpairs, h⟩ := bind_eq_some h
  obtain ⟨rfl, -⟩ := pure_eq_some h
  obtain ⟨hlength, hbytes, hkeys⟩ := loadPairs_spec hpairs
  refine ⟨hbytes, rfl, ?_, fun entry hentry => ?_⟩
  · rw [hlength, length_nil, Nat.zero_add]
    exact pairCnt.toNat_lt
  · rcases hkeys entry hentry with hmem | hkey
    · cases hmem
    · exact hkey

end Loaded

/-! ## Every reachable state -/

/-- The snapshot restored the aggregator: the same popularities under the same benefits in the same
order, a table that is inverse to them, an exact byte count, and later discards that end if the
preserved edgesets fit and remove nothing if everything does. -/
structure Restored (a a' : PopularityAggregator) : Prop where
  pairs : a'.benefitPopularityMultimap.map pairOf = a.benefitPopularityMultimap.map pairOf
  inverse : Inverse a'.benefitPopularityMultimap a'.perkeyBenefitPopularityTable
  bytes : a'.sizeBytes = bookedBytes a'
  discards : ∀ tr b, Runs step anyAction a' tr b →
    preservedBytes b.perkeyPreservedEdgeset ≤ b.popularityAggregationCapacityBytes →
    ∃ c, b.discardGlobalLessPopularObjects = some c ∧
      (bookedBytes b ≤ b.popularityAggregationCapacityBytes → c = b)

/-- The aggregator of any reachable state is restored from its snapshot if and only if no edges are
preserved and the number of its keys and their lengths fit into 32 bits. -/
theorem aggregator_restored_iff_of_runs {edgecnt topkEdgecnt : UInt32} {capacityBytes : Nat}
    {tr : List (Operation × Option FastPathHint)} {a : PopularityAggregator}
    (h : Runs step anyAction (create edgecnt.toNat capacityBytes topkEdgecnt.toNat) tr a) :
    (∀ rest, ∃ a', loadPopularityAggregator
        (create edgecnt.toNat capacityBytes topkEdgecnt.toNat)
        (dumpPopularityAggregator a ++ rest) = some (a', rest) ∧ Restored a a') ↔
      a.perkeyPreservedEdgeset.entries = [] ∧ a.benefitPopularityMultimap.length < 2 ^ 32 ∧
      ∀ entry ∈ a.benefitPopularityMultimap, entry.popularity.key.getKeyLength < 2 ^ 32 := by
  have hbooked := booked_of_runs h
  have hcountable : Countable edgecnt.toNat a :=
    h.invariant (countable_create _ _ _) fun hcountable _ hstep => countable_step hcountable hstep
  have hbytes := hbooked.bytes
  rw [bookedBytes] at hbytes
  constructor
  · intro hrestored
    obtain ⟨a', hload, hrestored⟩ := hrestored []
    obtain ⟨hsize, hpreserved, hlength, hkeys⟩ := loadPopularityAggregator_spec hload
    refine ⟨?_, ?_, fun entry hentry => ?_⟩
    · -- the bytes of the preserved edgesets are the ones that the restored content does not have
      have hbytes' := hrestored.bytes
      have heq := hbooked.linked.inverse.bytes_eq hrestored.inverse hrestored.pairs
      have hnone : preservedBytes a'.perkeyPreservedEdgeset = 0 := by
        rw [hpreserved]
        rfl
      rw [bookedBytes] at hbytes'
      rw [← preservedBytes_eq_zero_iff]
      omega
    · rw [← List.length_map (f := pairOf), ← hrestored.pairs, List.length_map]
      exact hlength
    · obtain ⟨entry', hentry', -, hpopularity⟩ := mem_of_pairOf hrestored.pairs.symm hentry
      rw [← hpopularity]
      exact hkeys entry' hentry'
  · rintro ⟨hnone, hlength, hkeys⟩ rest
    have hstored : ∀ entry ∈ a.benefitPopularityMultimap,
        entry.popularity.Countable edgecnt.toNat := fun entry hentry =>
      hcountable.stored entry.popularity.key entry.popularity
        ⟨entry, hentry, hbooked.linked.indexed entry hentry, rfl⟩
    obtain ⟨a', hreads, hlinked, hpairs, hsize, hpreserved⟩ :=
      reads_loadPopularityAggregator edgecnt.toNat_lt hbooked hstored hlength hkeys
        (create edgecnt.toNat capacityBytes topkEdgecnt.toNat)
    have hbooked' : Booked (lastWeighting tr) a' := by
      refine ⟨hlinked, ?_⟩
      have heq := hbooked.linked.inverse.bytes_eq hlinked.inverse hpairs
      have hzero := preservedBytes_eq_zero_iff.2 hnone
      rw [bookedBytes, hpreserved, hsize, hbytes, heq, hzero]
      rfl
    refine ⟨a', hreads rest, hpairs, hlinked.inverse, hbooked'.bytes, fun tr' b hrun hfits => ?_⟩
    obtain ⟨last, hlast⟩ : ∃ last, Booked last b := by
      refine hrun.invariant (P := fun b => ∃ last, Booked last b) ⟨_, hbooked'⟩ ?_
      rintro t op t' out ⟨last, hlast⟩ - hstep
      exact ⟨_, booked_step hlast hstep⟩
    exact hlast.discard hfits

/-- Two edges report a key; nothing is placed. -/
def twoReports : List Operation :=
  [.updateAggregatedUncachedPopularity (fun p _ q => p + q) ⟨[7]⟩ 0 ⟨true, 4, 10⟩ false false,
    .updateAggregatedUncachedPopularity (fun p _ q => p + q) ⟨[7]⟩ 1 ⟨true, 6, 10⟩ false false]

/-- Without a placement the snapshot restores the two reports. -/
theorem restored_twoReports :
    ∃ tr a, Runs step anyAction (create (3 : UInt32).toNat 71 (2 : UInt32).toNat) tr a ∧
      a.benefitPopularityMultimap.length = 1 ∧
      ∀ rest, ∃ a', loadPopularityAggregator (create (3 : UInt32).toNat 71 (2 : UInt32).toNat)
        (dumpPopularityAggregator a ++ rest) = some (a', rest) ∧ Restored a a' := by
  have hexec : (exec step anyAction (create (3 : UInt32).toNat 71 (2 : UInt32).toNat)
      twoReports).any (fun a => decide (a.benefitPopularityMultimap.length = 1) &&
        (a.perkeyPreservedEdgeset.entries.isEmpty &&
          decide (∀ entry ∈ a.benefitPopularityMultimap,
            entry.popularity.key.getKeyLength < 2 ^ 32))) = true := by
    decide +kernel
  obtain ⟨tr, a, hrun, -, ha⟩ := exists_runs_of_any hexec
  rw [Bool.and_eq_true, Bool.and_eq_true, decide_eq_true_eq, decide_eq_true_eq,
    List.isEmpty_iff] at ha
  obtain ⟨hlength, hnone, hkeys⟩ := ha
  exact ⟨tr, a, hrun, hlength, (aggregator_restored_iff_of_runs hrun).2 ⟨hnone, by omega, hkeys⟩⟩

/-- After a placement at one of the two edges the restored byte count is too large, and the report
of another key makes the aggregator discard an entry although both would fit. -/
theorem placement_not_restored :
    ∃ tr a, Runs step anyAction (create 3 71 2) tr a ∧
      ∃ a', loadPopularityAggregator (create 3 71 2) (dumpPopularityAggregator a) = some (a', []) ∧
        ¬ Restored a a' ∧ a'.sizeBytes = 37 ∧ bookedBytes a' = 35 ∧
        ∃ tr' b, Runs step anyAction a' tr' b ∧ b.benefitPopularityMultimap.length = 1 := by
  have hexec : (exec step anyAction (create 3 71 2) (twoReports ++
      [.updatePreservedEdgesetForPlacement (fun p _ q => p + q) ⟨[7]⟩ [1] false])).any (fun a =>
        (loadPopularityAggregator (create 3 71 2) (dumpPopularityAggregator a)).any fun r =>
          r.2.isEmpty && (decide (r.1.sizeBytes = 37) && (decide (bookedBytes r.1 = 35) &&
            (exec step anyAction r.1 [.updateAggregatedUncachedPopularity (fun p _ q => p + q)
              ⟨[8]⟩ 0 ⟨true, 4, 10⟩ false false]).any fun b =>
                decide (b.benefitPopularityMultimap.length = 1)))) = true := by
    decide +kernel
  obtain ⟨tr, a, hrun, -, ha⟩ := exists_runs_of_any hexec
  obtain ⟨⟨a', rest⟩, hload, ha'⟩ := (Option.any_eq_true _ _).1 ha
  rw [Bool.and_eq_true, Bool.and_eq_true, Bool.and_eq_true, List.isEmpty_iff, decide_eq_true_eq,
    decide_eq_true_eq] at ha'
  obtain ⟨rfl, hsize, hbooked, hlater⟩ := ha'
  obtain ⟨tr', b, hrun', -, hb⟩ := exists_runs_of_any hlater
  refine ⟨tr, a, hrun, a', hload, fun hrestored => ?_, hsize, hbooked, tr', b, hrun',
    of_decide_eq_true hb⟩
  have hbytes : 37 = 35 := hsize.symm.trans (hrestored.bytes.trans hbooked)
  omega

end PopularityAggregator

end Covered.Popularity
