import Covered.Cache.GreedyDualBase

/-!
# Aging and accounting of the greedy dual caches

`BaseInv` is the invariant of the base class: the lookup map denotes the elements of the multimap
and the byte counter is the sum of the entries of the two maps and of the given bytes of the derived
class. Every function of the base class keeps it, and says what it does to the keys and that it
leaves the aging factor alone. `Inv` adds the counters of references.

The aging factor stays `0`, because the local cache never calls the function that sets it, and every
object has a positive value. So the factor bounds the values of the victims only until the first
object is evicted: `aging_iff` says this for every run, beside the accounting, which always holds.
-/

set_option autoImplicit false

namespace Covered.Cache.GreedyDual

open Common Lib Lib.Checked Lib.Execution GreedyDualBase UnorderedMap LinkedList ValueMapEntry
open Option hiding bind_eq_some_iff

/-! ## What the byte counter counts -/

/-- The bytes of a value and of its key-value pair. -/
def ValueMapEntry.getSizeForCapacity (entry : ValueMapEntry) : Nat :=
  16 + objectSize entry.key entry.value

/-- The bytes of a key and of a number or an iterator. -/
def keyEntryBytes (key : Key) (_ : Nat) : Nat := key.getKeyLength + 8

namespace GreedyDualBase

def valueMapBytes (s : GreedyDualBase) : Nat :=
  s.valueMap.bytes ValueMapEntry.getSizeForCapacity

def cacheMapBytes (s : GreedyDualBase) : Nat := s.cacheMap.sumBy keyEntryBytes

def refsMapBytes (s : GreedyDualBase) : Nat := s.refsMap.sumBy keyEntryBytes

end GreedyDualBase

variable {s s' : GreedyDualBase} {key k : Key} {value : Value} {r it : Nat}
  {entry : ValueMapEntry} {ageValue : AgeValue}

/-- The lookup map denotes the elements of the multimap, whose objects have 32-bit sizes. -/
structure Mapped (s : GreedyDualBase) : Prop where
  indexes : Indexes ValueMapEntry.key s.cacheMap s.valueMap.get
  fits : ∀ it entry, s.valueMap.get it = some entry → ObjectFits entry.key entry.value

/-- The maps and the byte counter of the base class; `r` are the bytes of the derived class. -/
structure BaseInv (r : Nat) (s : GreedyDualBase) : Prop extends Mapped s where
  size : s.currentSize = s.valueMapBytes + s.cacheMapBytes + r
  bounded : s.currentSize < uint64Limit

/-- The counters of references and the aging factor, on which a new value depends. -/
structure SameAge (s s' : GreedyDualBase) : Prop where
  refsMap : s'.refsMap = s.refsMap
  currentL : s'.currentL = s.currentL

/-- Every value but that of the given key is a value from before. -/
def OldValues (s s' : GreedyDualBase) (key : Key) : Prop :=
  ∀ it entry, s'.valueMap.get it = some entry →
    entry.key = key ∨ ∃ it' entry', s.valueMap.get it' = some entry' ∧ entry'.hval = entry.hval

/-- What every function of the base class leaves as it is, but for the eviction of the first
object. -/
structure Kept (s s' : GreedyDualBase) (key : Key) : Prop extends SameAge s s' where
  oldValues : OldValues s s' key

theorem kept_refl (s : GreedyDualBase) (key : Key) : Kept s s key :=
  ⟨⟨rfl, rfl⟩, fun it entry hget => .inr ⟨it, entry, hget, rfl⟩⟩

/-- The same keys are cached. -/
def SameKeys (s s' : GreedyDualBase) : Prop :=
  ∀ k, (s'.cacheMap.lookup k).isSome = (s.cacheMap.lookup k).isSome

/-- The key has a value that the class computes from the counters and the aging factor. -/
def Valued (ageValue : AgeValue) (s s' : GreedyDualBase) (key : Key) : Prop :=
  ∃ t value hval, SameAge s t ∧ ageValue t key value = some hval ∧ s'.hvalOf key = some hval

theorem cacheMapBytes_insert (hlookup : s.cacheMap.lookup key = none) (it : Nat) :
    sumBy keyEntryBytes (s.cacheMap.insert key it) =
      s.cacheMapBytes + (key.getKeyLength + 8) := by
  have hinsert := sumBy_insert keyEntryBytes s.cacheMap key it
  rw [hlookup, elim_none, Nat.add_zero] at hinsert
  exact hinsert

theorem cacheMapBytes_reinsert (hlookup : s.cacheMap.lookup key = some it) (it' : Nat) :
    sumBy keyEntryBytes (s.cacheMap.insert key it') = s.cacheMapBytes := by
  have hinsert := sumBy_insert keyEntryBytes s.cacheMap key it'
  rw [hlookup, elim_some] at hinsert
  exact Nat.add_right_cancel hinsert

theorem bytes_insertSorted (l : LinkedList ValueMapEntry) (entry : ValueMapEntry) :
    (l.insertSorted hval entry).bytes getSizeForCapacity =
      l.bytes getSizeForCapacity + entry.getSizeForCapacity :=
  bytes_insertAt _ _

theorem get_insertSorted_eq (l : LinkedList ValueMapEntry) (entry : ValueMapEntry) :
    (l.insertSorted hval entry).get = Function.update l.get l.next (some entry) :=
  get_insertAt_eq _

/-! ## The functions of the base class -/

/-- A hit gives a cached key a new value and moves no bytes. -/
theorem Mapped.hit (h : Mapped s) (hhit : s.hit ageValue key = some s') :
    Mapped s' ∧ Kept s s' key ∧ SameKeys s s' ∧ Valued ageValue s s' key ∧
      s'.currentSize = s.currentSize ∧ s'.valueMapBytes = s.valueMapBytes ∧
      s'.cacheMapBytes = s.cacheMapBytes := by
  simp only [GreedyDualBase.hit, bind_eq_some_iff, pure_eq_some_iff] at hhit
  obtain ⟨it, hlookup, entry, hget, hval, hage, rfl⟩ := hhit
  obtain ⟨entry', hget', rfl⟩ := (h.indexes key it).1 hlookup
  obtain rfl : entry' = entry := some.inj (hget'.symm.trans hget)
  have hunused : s.valueMap.get (s.valueMap.erase it).next = none := get_next
  refine ⟨⟨?_, ?_⟩, ⟨⟨rfl, rfl⟩, ?_⟩, ?_, ⟨s, entry'.value, hval, ⟨rfl, rfl⟩, hage, ?_⟩, rfl, ?_,
    ?_⟩
  · -- the element moves to a new node of the multimap
    have hmove := h.indexes.move (b := ⟨hval, entry'.key, entry'.value⟩) hget rfl hunused
    rw [← get_erase_eq] at hmove
    show Indexes key _ (insertSorted _ _ _).get
    rw [get_insertSorted_eq]
    exact hmove
  · intro it' e he
    rw [get_insertSorted, get_erase] at he
    split at he
    · cases he
      exact h.fits it entry' hget
    · split at he
      · cases he
      · exact h.fits it' e he
  · intro it' e he
    rw [get_insertSorted, get_erase] at he
    split at he
    · cases he
      exact .inl rfl
    · split at he
      · cases he
      · exact .inr ⟨it', e, he, rfl⟩
  · intro k
    show ((s.cacheMap.insert _ _).lookup k).isSome = _
    rw [lookup_insert_eq]
    split
    · next hk => rw [hk, hlookup]; rfl
    · rfl
  · rw [hvalOf, lookup_insert_eq, if_pos rfl, bind_some,
      get_insertSorted, if_pos rfl]
    rfl
  · have herase := bytes_erase getSizeForCapacity hget
    rw [valueMapBytes, bytes_insertSorted]
    exact herase
  · exact cacheMapBytes_reinsert hlookup _

variable {out : Option Value}

theorem BaseInv.lookup (h : BaseInv r s) (hlookup : s.lookup ageValue key = some (s', out)) :
    BaseInv r s' ∧ Kept s s' key ∧ SameKeys s s' ∧
      (s'.cacheMap.lookup key ≠ none → Valued ageValue s s' key) := by
  rw [GreedyDualBase.lookup] at hlookup
  cases hfound : s.cacheMap.lookup key with
  | none =>
    rw [hfound, some.injEq, Prod.mk.injEq] at hlookup
    obtain ⟨rfl, -⟩ := hlookup
    exact ⟨h, kept_refl s key, fun _ => rfl, fun hcached => absurd hfound hcached⟩
  | some it =>
    simp only [hfound, bind_eq_some_iff, pure_eq_some_iff, Prod.mk.injEq] at hlookup
    obtain ⟨s₁, hhit, -, -, -, -, rfl, -⟩ := hlookup
    obtain ⟨hmapped, hkept, hkeys, hvalued, hsize, hvalues, hcache⟩ := h.toMapped.hit hhit
    refine ⟨⟨hmapped, ?_, ?_⟩, hkept, hkeys, fun _ => hvalued⟩
    · rw [hsize, hvalues, hcache]
      exact h.size
    · rw [hsize]
      exact h.bounded

/-- The value of a cached key replaced. -/
theorem Mapped.setValue (h : Mapped s) (hget : s.valueMap.get it = some entry)
    (hfits : ObjectFits entry.key value) :
    Mapped { s with valueMap := s.valueMap.set it { entry with value := value } } ∧
      (∀ it' e, (s.valueMap.set it { entry with value := value }).get it' = some e →
        ∃ e₀, s.valueMap.get it' = some e₀ ∧ e₀.hval = e.hval) ∧
      (s.valueMap.set it { entry with value := value }).bytes getSizeForCapacity +
        entry.value.valuesize = s.valueMapBytes + value.valuesize := by
  refine ⟨⟨?_, fun it' e he => ?_⟩, fun it' e he => ?_, ?_⟩
  · show Indexes key s.cacheMap (s.valueMap.set it { entry with value := value }).get
    rw [get_set_eq hget]
    exact h.indexes.set hget rfl
  · rw [get_set hget] at he
    split at he
    · cases he
      exact hfits
    · exact h.fits it' e he
  · rw [get_set hget] at he
    split at he
    · next hit =>
      cases he
      exact ⟨entry, hit ▸ hget, rfl⟩
    · exact ⟨e, he, rfl⟩
  · have hset := bytes_set getSizeForCapacity hget
      { entry with value := value }
    have hold : entry.getSizeForCapacity = 16 + (entry.key.getKeyLength + entry.value.valuesize) :=
      congrArg (16 + ·) (objectSize_of_objectFits (h.fits it entry hget))
    have hnew : ({ entry with value := value } : ValueMapEntry).getSizeForCapacity =
        16 + (entry.key.getKeyLength + value.valuesize) :=
      congrArg (16 + ·) (objectSize_of_objectFits hfits)
    rw [hold, hnew] at hset
    rw [valueMapBytes]
    omega

theorem BaseInv.update {isHit : Bool} (h : BaseInv r s) (hfits : ObjectFits key value)
    (hupdate : s.update ageValue key value = some (s', isHit)) :
    BaseInv r s' ∧ Kept s s' key ∧ SameKeys s s' ∧
      (s'.cacheMap.lookup key ≠ none → Valued ageValue s s' key) := by
  rw [GreedyDualBase.update] at hupdate
  cases hfound : s.cacheMap.lookup key with
  | none =>
    rw [hfound, some.injEq, Prod.mk.injEq] at hupdate
    obtain ⟨rfl, -⟩ := hupdate
    exact ⟨h, kept_refl s key, fun _ => rfl, fun hcached => absurd hfound hcached⟩
  | some it =>
    simp only [hfound, bind_eq_some_iff, require_eq_some_iff, pure_eq_some_iff,
      Prod.mk.injEq] at hupdate
    obtain ⟨entry, hget, s₁, hhit, increased, hadd, -, -, rfl, -⟩ := hupdate
    obtain ⟨entry', hget', rfl⟩ := (h.indexes key it).1 hfound
    obtain rfl : entry' = entry := some.inj (hget'.symm.trans hget)
    obtain ⟨hmapped, hold₀, hbytes⟩ := h.toMapped.setValue hget hfits
    obtain ⟨hmapped₁, hkept, hkeys, ⟨t, v, hval, ht, hage, hvalue⟩, hsize, hvalues, hcache⟩ :=
      hmapped.hit hhit
    have hincreased := uint64Add_eq_some hadd
    have hlt := uint64Add_lt hadd
    have hle : entry'.value.valuesize ≤ s.valueMapBytes + value.valuesize :=
      Nat.le.intro ((Nat.add_comm _ _).trans hbytes)
    have hold := h.size
    have hsize' : s₁.currentSize = s.currentSize := hsize
    have hvalues' : s₁.valueMapBytes + entry'.value.valuesize = s.valueMapBytes + value.valuesize :=
      (congrArg (· + _) hvalues).trans hbytes
    have hcache' : s₁.cacheMapBytes = s.cacheMapBytes := hcache
    have hminus : uint64Minus increased entry'.value.valuesize =
        increased - entry'.value.valuesize := uint64Minus_eq hlt (by omega)
    refine ⟨⟨⟨hmapped₁.indexes, hmapped₁.fits⟩, ?_, ?_⟩,
      ⟨⟨hkept.refsMap, hkept.currentL⟩, fun it' e he => ?_⟩, hkeys,
      fun _ => ⟨t, v, hval, ⟨ht.refsMap, ht.currentL⟩, hage, hvalue⟩⟩
    · show uint64Minus increased entry'.value.valuesize = s₁.valueMapBytes + s₁.cacheMapBytes + r
      omega
    · show uint64Minus increased entry'.value.valuesize < uint64Limit
      omega
    · rcases hkept.oldValues it' e he with hkey | ⟨it₀, e₀, hget₀, heq₀⟩
      · exact .inl hkey
      · obtain ⟨e₁, hget₁, heq₁⟩ := hold₀ it₀ e₀ hget₀
        exact .inr ⟨it₀, e₁, hget₁, heq₁.trans heq₀⟩

theorem BaseInv.admitObject (h : BaseInv r s) (hfits : ObjectFits key value)
    (hadmitted : s.admitObject ageValue key value = some s') :
    BaseInv r s' ∧ Kept s s' key ∧ s.cacheMap.lookup key = none ∧
      (∀ k, (s'.cacheMap.lookup k).isSome = true ↔
        k = key ∨ (s.cacheMap.lookup k).isSome = true) ∧ Valued ageValue s s' key := by
  simp only [GreedyDualBase.admitObject, bind_eq_some_iff, require_eq_some_iff,
    pure_eq_some_iff] at hadmitted
  obtain ⟨-, hnew, -, -, -, -, ageVal, hage, valueBytes, hvalueBytes, size₁, hsize₁, lookupBytes,
    hlookupBytes, size₂, hsize₂, rfl⟩ := hadmitted
  have hunused : s.valueMap.get s.valueMap.next = none := get_next
  refine ⟨⟨⟨?_, ?_⟩, ?_, uint64Add_lt hsize₂⟩, ⟨⟨rfl, rfl⟩, ?_⟩, hnew, ?_,
    ⟨s, value, ageVal, ⟨rfl, rfl⟩, hage, ?_⟩⟩
  · show Indexes ValueMapEntry.key _ (insertSorted _ _ _).get
    rw [get_insertSorted_eq]
    exact h.indexes.insert (a := ⟨ageVal, key, value⟩) hnew hunused
  · intro it' e he
    rw [get_insertSorted] at he
    split at he
    · cases he
      exact hfits
    · exact h.fits it' e he
  · have hsize := h.size
    have h₁ := uint64Add_eq_some hvalueBytes
    have h₂ := uint64Add_eq_some hsize₁
    have h₃ := uint64Add_eq_some hlookupBytes
    have h₄ := uint64Add_eq_some hsize₂
    have hcache := cacheMapBytes_insert hnew s.valueMap.next
    have hvalues := bytes_insertSorted s.valueMap ⟨ageVal, key, value⟩
    have hentry : (ValueMapEntry.mk ageVal key value).getSizeForCapacity =
      16 + objectSize key value := rfl
    show size₂ = (insertSorted _ _ _).bytes _ + sumBy _ _ + r
    rw [hvalues, hcache, hentry]
    rw [valueMapBytes] at hsize
    omega
  · intro it' e he
    rw [get_insertSorted] at he
    split at he
    · cases he
      exact .inl rfl
    · exact .inr ⟨it', e, he, rfl⟩
  · intro k
    show ((s.cacheMap.insert _ _).lookup k).isSome = true ↔ _
    rw [lookup_insert_eq]
    split
    · next hk => exact iff_of_true rfl (.inl hk)
    · next hk => exact (or_iff_right hk).symm
  · rw [hvalOf, lookup_insert_eq, if_pos rfl, bind_some,
      get_insertSorted, if_pos rfl]
    rfl

/-- An object erased from both maps. -/
theorem BaseInv.eraseObject (h : BaseInv r s) (hget : s.valueMap.get it = some entry)
    (herased : s.eraseObject it entry = some s') :
    BaseInv r s' ∧ Kept s s' entry.key ∧
      (∀ k, s'.cacheMap.lookup k = if k = entry.key then none else s.cacheMap.lookup k) := by
  simp only [GreedyDualBase.eraseObject, bind_eq_some_iff, pure_eq_some_iff] at herased
  obtain ⟨valueBytes, hvalueBytes, lookupBytes, hlookupBytes, rfl⟩ := herased
  have hsize := h.size
  have hbounded := h.bounded
  have h₁ : valueBytes = entry.getSizeForCapacity := uint64Add_eq_some hvalueBytes
  have h₂ := uint64Add_eq_some hlookupBytes
  have hvalues := bytes_erase getSizeForCapacity hget
  have hcache := sumBy_erase keyEntryBytes s.cacheMap entry.key
  rw [h.indexes.lookup_of_get hget, elim_some] at hcache
  have hentry : keyEntryBytes entry.key it = entry.key.getKeyLength + 8 := rfl
  rw [valueMapBytes, cacheMapBytes] at hsize
  have hminus₁ : uint64Minus s.currentSize valueBytes = s.currentSize - valueBytes :=
    uint64Minus_eq hbounded (by omega)
  have hminus₂ : uint64Minus (s.currentSize - valueBytes) lookupBytes =
      s.currentSize - valueBytes - lookupBytes := uint64Minus_eq (by omega) (by omega)
  refine ⟨⟨⟨?_, fun it' e he => ?_⟩, ?_, ?_⟩, ⟨⟨rfl, rfl⟩, fun it' e he => ?_⟩, fun k => ?_⟩
  · show Indexes key _ (s.valueMap.erase it).get
    rw [get_erase_eq]
    exact h.indexes.erase hget
  · rw [get_erase] at he
    split at he
    · cases he
    · exact h.fits it' e he
  · show uint64Minus (uint64Minus s.currentSize valueBytes) lookupBytes =
      (s.valueMap.erase it).bytes getSizeForCapacity +
        sumBy keyEntryBytes (s.cacheMap.erase entry.key) + r
    rw [hminus₁, hminus₂]
    omega
  · show uint64Minus (uint64Minus s.currentSize valueBytes) lookupBytes < uint64Limit
    rw [hminus₁, hminus₂]
    omega
  · rw [get_erase] at he
    split at he
    · cases he
    · exact .inr ⟨it', e, he, rfl⟩
  · exact lookup_erase_eq s.cacheMap k entry.key

theorem BaseInv.evict {out : Option Value} (h : BaseInv r s)
    (hevict : s.evict key = some (s', out)) :
    BaseInv r s' ∧ Kept s s' key ∧
      (∀ k, s'.cacheMap.lookup k = if k = key then none else s.cacheMap.lookup k) ∧
      (out.isSome = (s.cacheMap.lookup key).isSome) := by
  rw [GreedyDualBase.evict] at hevict
  cases hfound : s.cacheMap.lookup key with
  | none =>
    rw [hfound, some.injEq, Prod.mk.injEq] at hevict
    obtain ⟨rfl, rfl⟩ := hevict
    refine ⟨h, kept_refl s key, fun k => ?_, rfl⟩
    split
    · next hk => rw [hk, hfound]
    · rfl
  | some it =>
    simp only [hfound, bind_eq_some_iff, require_eq_some_iff, pure_eq_some_iff,
      Prod.mk.injEq] at hevict
    obtain ⟨entry, hget, -, rfl, s₁, herased, rfl, rfl⟩ := hevict
    obtain ⟨hinv, hkept, hkeys⟩ := h.eraseObject hget herased
    exact ⟨hinv, hkept, hkeys, rfl⟩

/-! ## The derived classes -/

/-- The counters of references belong to the cached keys; a class without them has none. -/
structure Inv (counts : Bool) (s : GreedyDualBase) : Prop where
  base : BaseInv s.refsMapBytes s
  refs : ∀ key, (s.refsMap.lookup key).isSome = (counts && (s.cacheMap.lookup key).isSome)
  counted : ∀ key frequency, s.refsMap.lookup key = some frequency → 0 < frequency

/-- A finite aging factor is below the new value of the key. -/
def Above (s s' : GreedyDualBase) (key : Key) : Prop :=
  ∀ hval, s'.hvalOf key = some hval → s.currentL ≠ ⊤ → s.currentL < hval

/-- A class whose values grow above the aging factor. -/
def Rising (ageValue : AgeValue) : Prop :=
  ∀ s key value hval, (∀ key frequency, s.refsMap.lookup key = some frequency → 0 < frequency) →
    ageValue s key value = some hval → s.currentL ≠ ⊤ → s.currentL < hval

variable {counts : Bool} {c : GreedyDualClass}

theorem quotient_pos {x : Nat} (hx : 0 < x) (y : Nat) : 0 < quotient x y := by
  rw [quotient]
  split
  · exact WithTop.top_pos
  · next hy =>
    have hpos : (0 : ℚ) < x / y :=
      div_pos (Nat.cast_pos.2 hx) (Nat.cast_pos.2 (Nat.pos_of_ne_zero hy))
    exact WithTop.coe_pos.2 hpos

theorem lt_add_of_finite {x y : Hval} (hx : x ≠ ⊤) (hy : 0 < y) : x < x + y := by
  lift x to ℚ using hx
  induction y using WithTop.recTopCoe with
  | top => rw [WithTop.add_top]; exact WithTop.coe_lt_top x
  | coe y => exact WithTop.coe_lt_coe.2 (lt_add_of_pos_right x (WithTop.coe_pos.1 hy))

theorem rising_ageValue (c : GreedyDualClass) : Rising c.ageValue := by
  intro s key value hval hcounted hage hfinite
  cases c with
  | gdsfCache =>
    obtain ⟨frequency, hlookup, hval⟩ := bind_eq_some_iff.1 hage
    cases hval
    exact lt_add_of_finite hfinite (quotient_pos (hcounted key frequency hlookup) _)
  | gdSizeCache =>
    cases hage
    exact lt_add_of_finite hfinite (quotient_pos Nat.one_pos _)
  | lfuDaCache =>
    obtain ⟨frequency, hlookup, hval⟩ := bind_eq_some_iff.1 hage
    cases hval
    exact lt_add_of_finite hfinite (quotient_pos (hcounted key frequency hlookup) _)

theorem cached_of_hvalOf {hval : Hval} (h : s.hvalOf key = some hval) :
    s.cacheMap.lookup key ≠ none := by
  intro hnone
  rw [hvalOf, hnone] at h
  cases h

theorem Valued.above (hrising : Rising ageValue)
    (hcounted : ∀ key frequency, s.refsMap.lookup key = some frequency → 0 < frequency)
    (h : s'.cacheMap.lookup key ≠ none → Valued ageValue s s' key) : Above s s' key := by
  intro hval hvalOf hfinite
  obtain ⟨t, value, hval', hkept, hage, hvalue⟩ := h (cached_of_hvalOf hvalOf)
  rw [hvalOf, some.injEq] at hvalue
  subst hvalue
  rw [← hkept.currentL] at hfinite ⊢
  refine hrising t key value hval (fun k n hn => ?_) hage hfinite
  rw [hkept.refsMap] at hn
  exact hcounted k n hn

theorem Inv.of_sameKeys (h : Inv counts s) (hbase : BaseInv s.refsMapBytes s')
    (hkept : SameAge s s') (hkeys : SameKeys s s') : Inv counts s' := by
  constructor
  case base =>
    rw [refsMapBytes, hkept.refsMap]
    exact hbase
  case refs =>
    intro k
    rw [hkept.refsMap, hkeys k]
    exact h.refs k
  case counted =>
    rw [hkept.refsMap]
    exact h.counted

open ReferenceCounting in
theorem Inv.countReference (h : Inv counts s) (key : Key) : Inv counts (countReference s key) := by
  rw [ReferenceCounting.countReference]
  cases hfound : s.refsMap.lookup key with
  | none => exact h
  | some frequency =>
    have hinsert := sumBy_insert keyEntryBytes s.refsMap key (frequency + 1)
    rw [hfound, elim_some] at hinsert
    have hbytes : sumBy keyEntryBytes (s.refsMap.insert key (frequency + 1)) =
      s.refsMapBytes := Nat.add_right_cancel hinsert
    constructor
    case base =>
      show BaseInv (sumBy keyEntryBytes (s.refsMap.insert key (frequency + 1))) _
      rw [hbytes]
      exact ⟨⟨h.base.indexes, h.base.fits⟩, h.base.size, h.base.bounded⟩
    case refs =>
      intro k
      show ((s.refsMap.insert key (frequency + 1)).lookup k).isSome = _
      rw [lookup_insert_eq]
      split
      · next hk => rw [hk, ← h.refs key, hfound]; rfl
      · exact h.refs k
    case counted =>
      intro k n hn
      have hlookup : (s.refsMap.insert key (frequency + 1)).lookup k = some n := hn
      rw [lookup_insert_eq] at hlookup
      split at hlookup
      · cases hlookup
        exact Nat.succ_pos frequency
      · exact h.counted k n hlookup

theorem currentL_countReference (s : GreedyDualBase) (key : Key) :
    (ReferenceCounting.countReference s key).currentL = s.currentL := by
  rw [ReferenceCounting.countReference]
  split
  · rfl
  · rfl

theorem valueMap_countReference (s : GreedyDualBase) (key : Key) :
    (ReferenceCounting.countReference s key).valueMap = s.valueMap := by
  rw [ReferenceCounting.countReference]
  split
  · rfl
  · rfl

/-- What a call of a derived class keeps: the invariant and the aging factor, below which no value
of the key falls. -/
structure Ages (counts : Bool) (s s' : GreedyDualBase) (key : Key) : Prop where
  inv : Inv counts s'
  currentL : s'.currentL = s.currentL
  oldValues : OldValues s s' key
  above : Above s s' key

theorem Ages.of_countReference {key' : Key}
    (h : Ages counts (ReferenceCounting.countReference s key') s' key) : Ages counts s s' key := by
  obtain ⟨hinv, hcurrentL, hold, habove⟩ := h
  rw [Above, currentL_countReference] at habove
  rw [currentL_countReference] at hcurrentL
  rw [OldValues, valueMap_countReference] at hold
  exact ⟨hinv, hcurrentL, hold, habove⟩

section Base

variable (hrising : Rising ageValue)

include hrising

theorem Inv.baseLookup {out : Option Value} (h : Inv counts s)
    (hlookup : GreedyDualBase.lookup ageValue s key = some (s', out)) : Ages counts s s' key := by
  obtain ⟨hbase, hkept, hkeys, hvalued⟩ := h.base.lookup hlookup
  exact ⟨h.of_sameKeys hbase hkept.toSameAge hkeys, hkept.currentL, hkept.oldValues,
    Valued.above hrising h.counted hvalued⟩

theorem Inv.baseUpdate {isHit : Bool} (h : Inv counts s) (hfits : ObjectFits key value)
    (hupdate : GreedyDualBase.update ageValue s key value = some (s', isHit)) :
    Ages counts s s' key := by
  obtain ⟨hbase, hkept, hkeys, hvalued⟩ := h.base.update hfits hupdate
  exact ⟨h.of_sameKeys hbase hkept.toSameAge hkeys, hkept.currentL, hkept.oldValues,
    Valued.above hrising h.counted hvalued⟩

theorem Inv.countingLookup {out : Option Value} (h : Inv counts s)
    (hlookup : ReferenceCounting.lookup ageValue s key = some (s', out)) :
    Ages counts s s' key := by
  simp only [ReferenceCounting.lookup, bind_eq_some_iff, require_eq_some_iff, pure_eq_some_iff,
    Prod.mk.injEq, Prod.exists] at hlookup
  obtain ⟨s₁, v, hbase, -, -, rfl, -⟩ := hlookup
  exact ((h.countReference key).baseLookup hrising hbase).of_countReference

theorem Inv.countingUpdate {isHit : Bool} (h : Inv counts s) (hfits : ObjectFits key value)
    (hupdate : ReferenceCounting.update ageValue s key value = some (s', isHit)) :
    Ages counts s s' key := by
  simp only [ReferenceCounting.update, bind_eq_some_iff, require_eq_some_iff, pure_eq_some_iff,
    Prod.mk.injEq, Prod.exists] at hupdate
  obtain ⟨s₁, b, hbase, -, -, rfl, -⟩ := hupdate
  exact ((h.countReference key).baseUpdate hrising hfits hbase).of_countReference

/-- A base class without counters of references admits an object. -/
theorem Inv.baseAdmit (h : Inv false s) (hfits : ObjectFits key value)
    (hadmitted : GreedyDualBase.admitObject ageValue s key value = some s') :
    Ages false s s' key := by
  obtain ⟨hbase, hkept, -, -, hvalued⟩ := h.base.admitObject hfits hadmitted
  refine ⟨⟨?_, fun k => ?_, ?_⟩, hkept.currentL, hkept.oldValues,
    Valued.above hrising h.counted fun _ => hvalued⟩
  · rw [refsMapBytes, hkept.refsMap]
    exact hbase
  · rw [hkept.refsMap]
    exact h.refs k
  · rw [hkept.refsMap]
    exact h.counted

/-- The counter of references is admitted before the object. -/
theorem Inv.countingAdmit (h : Inv true s) (hfits : ObjectFits key value)
    (hadmitted : ReferenceCounting.admitObject ageValue s key value = some s') :
    Ages true s s' key := by
  simp only [ReferenceCounting.admitObject, bind_eq_some_iff, require_eq_some_iff] at hadmitted
  obtain ⟨-, hnew, statBytes, hstatBytes, size, hsize, hadmitted⟩ := hadmitted
  have hinsert := sumBy_insert keyEntryBytes s.refsMap key 1
  rw [hnew, elim_none, Nat.add_zero] at hinsert
  have hbytes : sumBy keyEntryBytes (s.refsMap.insert key 1) =
    s.refsMapBytes + (key.getKeyLength + 8) := hinsert
  have hadd₁ := uint64Add_eq_some hstatBytes
  have hadd₂ := uint64Add_eq_some hsize
  have hold := h.base.size
  have hbase : BaseInv (sumBy keyEntryBytes (s.refsMap.insert key 1))
      { s with refsMap := s.refsMap.insert key 1, currentSize := size } := by
    refine ⟨⟨h.base.indexes, h.base.fits⟩, ?_, uint64Add_lt hsize⟩
    show size = s.valueMapBytes + s.cacheMapBytes + _
    omega
  obtain ⟨hbase', hkept, hcache, hkeys, hvalued⟩ := hbase.admitObject hfits hadmitted
  have hrefs : s'.refsMap = s.refsMap.insert key 1 := hkept.refsMap
  have hcounted : ∀ k n, (s.refsMap.insert key 1).lookup k = some n → 0 < n := by
    intro k n hn
    rw [lookup_insert_eq] at hn
    split at hn
    · cases hn
      exact Nat.one_pos
    · exact h.counted k n hn
  refine ⟨⟨?_, fun k => ?_, ?_⟩, hkept.currentL, hkept.oldValues,
    Valued.above (s := { s with refsMap := s.refsMap.insert key 1, currentSize := size }) hrising
      hcounted fun _ => hvalued⟩
  · rw [refsMapBytes, hrefs]
    exact hbase'
  · have hcached := hkeys k
    rw [hrefs, lookup_insert_eq, Bool.true_and]
    by_cases hk : k = key
    · rw [if_pos hk, hcached.2 (.inl hk)]
      rfl
    · rw [if_neg hk, h.refs k, Bool.true_and, Bool.eq_iff_iff, hcached, or_iff_right hk]
  · rw [hrefs]
    exact hcounted

end Base

theorem above_of_evicted
    (h : s'.cacheMap.lookup key = if key = key then none else s.cacheMap.lookup key) :
    Above s s' key := by
  intro hval hvalOf
  rw [if_pos rfl] at h
  exact absurd h (cached_of_hvalOf hvalOf)

theorem Inv.baseEvict (h : Inv false s) (hevict : GreedyDualBase.evict s key = some (s', out)) :
    Ages false s s' key := by
  obtain ⟨hbase, hkept, hkeys, -⟩ := h.base.evict hevict
  refine ⟨⟨?_, fun k => ?_, ?_⟩, hkept.currentL, hkept.oldValues, above_of_evicted (hkeys key)⟩
  · rw [refsMapBytes, hkept.refsMap]
    exact hbase
  · rw [hkept.refsMap]
    exact h.refs k
  · rw [hkept.refsMap]
    exact h.counted

theorem Inv.countingEvict (h : Inv true s)
    (hevict : ReferenceCounting.evict s key = some (s', out)) :
    Ages true s s' key := by
  simp only [ReferenceCounting.evict, bind_eq_some_iff, Prod.exists] at hevict
  obtain ⟨s₁, v, hbase, hevict⟩ := hevict
  obtain ⟨hbase₁, hkept, hkeys, hfound⟩ := h.base.evict hbase
  cases v with
  | none =>
    rw [pure_eq_some_iff, Prod.mk.injEq] at hevict
    obtain ⟨rfl, -⟩ := hevict
    have hnone : s.cacheMap.lookup key = none :=
      not_isSome_iff_eq_none.1 fun hsome => Bool.false_ne_true (hfound.trans hsome)
    refine ⟨h.of_sameKeys hbase₁ hkept.toSameAge fun k => ?_, hkept.currentL, hkept.oldValues,
      above_of_evicted (hkeys key)⟩
    rw [hkeys k]
    split
    · next hk => rw [hk, hnone]
    · rfl
  | some v =>
    simp only [ReferenceCounting.eraseReferences, map_eq_some_iff, bind_eq_some_iff,
      require_eq_some_iff, pure_eq_some_iff, Prod.mk.injEq] at hevict
    obtain ⟨s₂, ⟨-, hsome, statBytes, hstatBytes, rfl⟩, rfl, -⟩ := hevict
    obtain ⟨frequency, hfrequency⟩ := isSome_iff_exists.1 hsome
    rw [hkept.refsMap] at hfrequency
    have herase := sumBy_erase keyEntryBytes s.refsMap key
    rw [hfrequency, elim_some] at herase
    have hstat : keyEntryBytes key frequency = statBytes := (uint64Add_eq_some hstatBytes).symm
    have hsize := hbase₁.size
    have hbounded := hbase₁.bounded
    rw [refsMapBytes] at hsize
    have hminus : uint64Minus s₁.currentSize statBytes = s₁.currentSize - statBytes :=
      uint64Minus_eq hbounded (by omega)
    refine ⟨⟨⟨⟨hbase₁.indexes, hbase₁.fits⟩, ?_, ?_⟩, fun k => ?_, fun k n hn => ?_⟩,
      hkept.currentL, hkept.oldValues, above_of_evicted (hkeys key)⟩
    · show uint64Minus s₁.currentSize statBytes = s₁.valueMapBytes + s₁.cacheMapBytes +
        sumBy keyEntryBytes (s₁.refsMap.erase key)
      rw [hkept.refsMap]
      omega
    · show uint64Minus s₁.currentSize statBytes < uint64Limit
      omega
    · show ((s₁.refsMap.erase key).lookup k).isSome = _
      rw [hkept.refsMap, lookup_erase_eq, hkeys k]
      split
      · rfl
      · exact h.refs k
    · have hlookup : (s₁.refsMap.erase key).lookup k = some n := hn
      rw [hkept.refsMap, lookup_erase_eq] at hlookup
      split at hlookup
      · cases hlookup
      · exact h.counted k n hlookup

/-! ## The classes -/

theorem Inv.lookup (h : Inv c.countsReferences s) (hlookup : c.lookup s key = some (s', out)) :
    Ages c.countsReferences s s' key := by
  have hrising := rising_ageValue c
  cases c with
  | gdsfCache => exact h.countingLookup hrising hlookup
  | gdSizeCache => exact h.baseLookup hrising hlookup
  | lfuDaCache => exact h.countingLookup hrising hlookup

theorem Inv.update {isHit : Bool} (h : Inv c.countsReferences s) (hfits : ObjectFits key value)
    (hupdate : c.update s key value = some (s', isHit)) : Ages c.countsReferences s s' key := by
  have hrising := rising_ageValue c
  cases c with
  | gdsfCache => exact h.countingUpdate hrising hfits hupdate
  | gdSizeCache => exact h.baseUpdate hrising hfits hupdate
  | lfuDaCache => exact h.countingUpdate hrising hfits hupdate

theorem Inv.admitObject (h : Inv c.countsReferences s) (hfits : ObjectFits key value)
    (hadmitted : c.admitObject s key value = some s') : Ages c.countsReferences s s' key := by
  have hrising := rising_ageValue c
  cases c with
  | gdsfCache => exact h.countingAdmit hrising hfits hadmitted
  | gdSizeCache => exact h.baseAdmit hrising hfits hadmitted
  | lfuDaCache => exact h.countingAdmit hrising hfits hadmitted

theorem Inv.evict {out : Option Value} (h : Inv c.countsReferences s)
    (hevict : c.evict s key = some (s', out)) : Ages c.countsReferences s s' key := by
  cases c with
  | gdsfCache => exact h.countingEvict hevict
  | gdSizeCache => exact h.baseEvict hevict
  | lfuDaCache => exact h.countingEvict hevict

/-! ## Runs of the local cache -/

variable {d d' : Driven} {a : Action} {out : Output} {tr : List (Action × Output)}

/-- Objects have 32-bit sizes. -/
def Wellsized (_ : Driven) : Action → Prop
  | .lookup _ => True
  | .update key value => ObjectFits key value
  | .admitObject key value => ObjectFits key value
  | .evictVictim => True

/-- Objects have 32-bit sizes, and nothing is evicted. -/
def Meets (d : Driven) (a : Action) : Prop :=
  Wellsized d a ∧ (a = .evictVictim → d.cache.getVictimKey = none)

instance (d : Driven) : (a : Action) → Decidable (Wellsized d a)
  | .lookup _ => inferInstanceAs (Decidable True)
  | .update key value => inferInstanceAs (Decidable (ObjectFits key value))
  | .admitObject key value => inferInstanceAs (Decidable (ObjectFits key value))
  | .evictVictim => inferInstanceAs (Decidable True)

instance (d : Driven) (a : Action) : Decidable (Meets d a) := inferInstanceAs (Decidable (_ ∧ _))

/-- The maps of a cache hold the same keys, and the byte counter is the sum of their entries. -/
structure Accounted (c : GreedyDualClass) (s : GreedyDualBase) : Prop where
  distinct : KeyedList.NodupKeys ValueMapEntry.key s.valueMap.toList
  cacheMap : ∀ key, (s.cacheMap.lookup key).isSome = true ↔
    key ∈ s.valueMap.toList.map ValueMapEntry.key
  refsMap : c.countsReferences = true →
    ∀ key, (s.refsMap.lookup key).isSome = (s.cacheMap.lookup key).isSome
  size : s.currentSize = s.valueMapBytes + s.cacheMapBytes + s.refsMapBytes

/-- What should hold in every reached state: the accounting; the aging factor does not fall and is
at least the value of every victim; the next value of an object is above those of all victims. -/
structure Correct (c : GreedyDualClass) (C : Driven → Action → Prop) (d : Driven) : Prop where
  accounted : Accounted c d.cache
  rises : ∀ a d' out, C d a → step c d a = some (d', out) → d.cache.currentL ≤ d'.cache.currentL
  bounds : ∀ victim ∈ d.evicted, victim ≤ d.cache.currentL
  exceeds : ∀ a key d' out hval, C d a → a.valuedKey? = some key →
    step c d a = some (d', out) → d'.cache.hvalOf key = some hval →
      ∀ victim ∈ d.evicted, victim < hval

/-- The aging factor is `0` and every value, also of a victim, is positive. -/
structure DrivenInv (c : GreedyDualClass) (d : Driven) : Prop where
  inv : Inv c.countsReferences d.cache
  currentL : d.cache.currentL = 0
  positive : ∀ it entry, d.cache.valueMap.get it = some entry → 0 < entry.hval
  evicted : ∀ victim ∈ d.evicted, 0 < victim

theorem Inv.accounted (h : Inv c.countsReferences s) : Accounted c s where
  distinct := nodupKeys_of_indexes h.base.indexes
  cacheMap := by
    intro key
    rw [isSome_iff_exists, List.mem_map]
    constructor
    · rintro ⟨it, hlookup⟩
      obtain ⟨entry, hget, hkey⟩ := (h.base.indexes key it).1 hlookup
      exact ⟨entry, mem_toList_iff.2 ⟨it, hget⟩, hkey⟩
    · rintro ⟨entry, hmem, rfl⟩
      obtain ⟨it, hget⟩ := mem_toList_iff.1 hmem
      exact ⟨it, h.base.indexes.lookup_of_get hget⟩
  refsMap := by
    intro hcounts key
    rw [h.refs key, hcounts, Bool.true_and]
  size := h.base.size

theorem hvalOf_of_get (h : Inv counts s) (hget : s.valueMap.get it = some entry) :
    s.hvalOf entry.key = some entry.hval := by
  rw [hvalOf, h.base.indexes.lookup_of_get hget, bind_some, hget, map_some]

/-- A call keeps the values positive. -/
theorem DrivenInv.ages (h : DrivenInv c d) {evicted : List Hval}
    (hages : Ages c.countsReferences d.cache s' key) (hevicted : ∀ victim ∈ evicted, 0 < victim) :
    DrivenInv c { cache := s', evicted := evicted } where
  inv := hages.inv
  currentL := hages.currentL.trans h.currentL
  evicted := hevicted
  positive := by
    intro it entry hget
    rcases hages.oldValues it entry hget with rfl | ⟨it', entry', hget', hval⟩
    · have hlt := hages.above _ (hvalOf_of_get hages.inv hget)
      rw [h.currentL] at hlt
      exact hlt WithTop.zero_ne_top
    · exact hval ▸ h.positive it' entry' hget'

/-- What a call of the local cache does: nothing, or what a call of the class does for one key. -/
theorem DrivenInv.step_cases (h : DrivenInv c d) (hwell : Wellsized d a)
    (hstep : step c d a = some (d', out)) :
    (a = .evictVictim ∧ d.cache.getVictimKey = none ∧ d' = d) ∨
      ∃ key, Ages c.countsReferences d.cache d'.cache key ∧
        (a.valuedKey? = some key ∧ d'.evicted = d.evicted ∨
          a = .evictVictim ∧ d.cache.getVictimKey = some key ∧
            d'.evicted = (d.cache.hvalOf key).toList ++ d.evicted) := by
  cases a with
  | lookup key =>
    obtain ⟨⟨s', v⟩, hlookup, heq⟩ := map_eq_some_iff.1 hstep
    cases heq
    exact .inr ⟨key, h.inv.lookup hlookup, .inl ⟨rfl, rfl⟩⟩
  | update key value =>
    obtain ⟨⟨s', b⟩, hupdate, heq⟩ := map_eq_some_iff.1 hstep
    cases heq
    exact .inr ⟨key, h.inv.update hwell hupdate, .inl ⟨rfl, rfl⟩⟩
  | admitObject key value =>
    obtain ⟨s', hadmitted, heq⟩ := map_eq_some_iff.1 hstep
    cases heq
    exact .inr ⟨key, h.inv.admitObject hwell hadmitted, .inl ⟨rfl, rfl⟩⟩
  | evictVictim =>
    have hevict : evictVictim c d = some (d', out) := hstep
    rw [evictVictim] at hevict
    cases hvictim : d.cache.getVictimKey with
    | none =>
      rw [hvictim, some.injEq, Prod.mk.injEq] at hevict
      exact .inl ⟨rfl, rfl, hevict.1.symm⟩
    | some key =>
      simp only [hvictim, bind_eq_some_iff, pure_eq_some_iff, Prod.mk.injEq, Prod.exists] at hevict
      obtain ⟨s', v, hevict, rfl, -⟩ := hevict
      exact .inr ⟨key, h.inv.evict hevict, .inr ⟨rfl, rfl, rfl⟩⟩

/-- The victim that is asked for is in the maps. -/
theorem hvalOf_victim (h : Inv counts s) (hvictim : s.getVictimKey = some key) :
    ∃ hval, s.hvalOf key = some hval ∧ ∃ it entry, s.valueMap.get it = some entry ∧
      entry.hval = hval := by
  obtain ⟨entry, hhead, rfl⟩ := map_eq_some_iff.1 hvictim
  obtain ⟨it, hget⟩ := mem_toList_iff.1 (List.mem_of_head? hhead)
  exact ⟨entry.hval, hvalOf_of_get h hget, it, entry, hget, rfl⟩

theorem DrivenInv.step (h : DrivenInv c d) (hwell : Wellsized d a)
    (hstep : GreedyDual.step c d a = some (d', out)) : DrivenInv c d' := by
  rcases h.step_cases hwell hstep with ⟨-, -, rfl⟩ | ⟨key, hages, hcases⟩
  · exact h
  · obtain ⟨s', evicted⟩ := d'
    refine h.ages hages ?_
    rcases hcases with ⟨-, hevicted⟩ | ⟨-, hvictim, hevicted⟩
    · intro victim hmem
      exact h.evicted victim ((show evicted = d.evicted from hevicted) ▸ hmem)
    · obtain ⟨hval, hvalOf, it, entry, hget, rfl⟩ := hvalOf_victim h.inv hvictim
      have heq : evicted = (d.cache.hvalOf key).toList ++ d.evicted := hevicted
      rw [heq, hvalOf, toList_some, List.singleton_append]
      intro victim hmem
      rcases List.mem_cons.1 hmem with rfl | hmem
      · exact h.positive it entry hget
      · exact h.evicted victim hmem

theorem drivenInv_create (c : GreedyDualClass) (capacityBytes : Nat) :
    DrivenInv c (create capacityBytes) where
  inv :=
    { base :=
        { indexes := Indexes.empty fun _ => rfl
          fits := fun _ _ h => by cases h
          size := rfl
          bounded := by
            show 0 < uint64Limit
            decide }
      refs := fun _ => (Bool.and_false _).symm
      counted := fun _ _ h => by cases h }
  currentL := rfl
  positive := fun _ _ h => by cases h
  evicted := fun _ h => by cases h

theorem drivenInv_of_runs {capacityBytes : Nat}
    (h : Runs (step c) Wellsized (create capacityBytes) tr d) : DrivenInv c d :=
  h.invariant (drivenInv_create c capacityBytes) fun hinv hwell hstep => hinv.step hwell hstep

/-- While nothing has been evicted, the aging is correct. -/
theorem DrivenInv.correct (h : DrivenInv c d) (hempty : d.evicted = []) :
    Correct c Wellsized d where
  accounted := h.inv.accounted
  rises := by
    intro a d' out hwell hstep
    rw [h.currentL, (h.step hwell hstep).currentL]
  bounds := by
    rw [hempty]
    intro victim hmem
    cases hmem
  exceeds := by
    rw [hempty]
    intro a key d' out hval _ _ _ _ victim hmem
    cases hmem

/-- For every run of calls with 32-bit object sizes: the maps and the byte counter agree and the
aging is correct in the state reached if and only if no call of the run evicted an object. -/
theorem aging_iff (c : GreedyDualClass) (capacityBytes : Nat) (tr : List (Action × Output))
    (d : Driven) (h : Runs (step c) Wellsized (create capacityBytes) tr d) :
    Correct c Wellsized d ↔ Runs (step c) Meets (create capacityBytes) tr d := by
  constructor
  · intro hcorrect
    -- a victim has a positive value, and the factor is still `0`
    have hempty : d.evicted = [] := by
      refine List.eq_nil_iff_forall_not_mem.2 fun victim hmem => ?_
      have hle := hcorrect.bounds victim hmem
      have hinv := drivenInv_of_runs h
      rw [hinv.currentL] at hle
      exact absurd (hinv.evicted victim hmem) (not_lt.2 hle)
    have key : d.evicted = [] → Runs (step c) Meets (create capacityBytes) tr d := by
      clear hempty hcorrect
      induction h with
      | nil => exact fun _ => .nil
      | @cons tr t t' a out hrun hwell hstep ih =>
        intro hempty
        have hinv := drivenInv_of_runs hrun
        rcases hinv.step_cases hwell hstep with ⟨rfl, hnone, rfl⟩ | ⟨key, -, hcases⟩
        · exact .cons (ih hempty) ⟨hwell, fun _ => hnone⟩ hstep
        · rcases hcases with ⟨hvalued, hevicted⟩ | ⟨rfl, hvictim, hevicted⟩
          · refine .cons (ih (hevicted.symm.trans hempty)) ⟨hwell, ?_⟩ hstep
            rintro rfl
            cases hvalued
          · obtain ⟨hval, hvalOf, -⟩ := hvalOf_victim hinv.inv hvictim
            rw [hevicted, hvalOf] at hempty
            cases hempty
    exact key hempty
  · intro hmeets
    refine (drivenInv_of_runs h).correct ?_
    clear h
    induction hmeets with
    | nil => rfl
    | cons hrun hmeets hstep ih =>
      have hinv := drivenInv_of_runs (hrun.mono fun _ _ h => h.1)
      rcases hinv.step_cases hmeets.1 hstep with ⟨-, -, rfl⟩ | ⟨key, -, hcases⟩
      · exact ih
      · rcases hcases with ⟨-, hevicted⟩ | ⟨heq, hvictim, -⟩
        · exact hevicted.trans ih
        · rw [hmeets.2 heq] at hvictim
          cases hvictim

/-! ## Concrete runs -/

def agedKey : Key := ⟨[7]⟩

/-- An object that is admitted, read and evicted. -/
def admitAndEvict : List Action :=
  [.admitObject agedKey (.ofSize 3), .lookup agedKey, .evictVictim]

/-- Whether the value of a victim is above the aging factor. -/
def outlives (d : Driven) : Bool := d.evicted.any fun victim => decide (d.cache.currentL < victim)

/-- In no class the aging factor follows the victims: it is still `0` after an object is evicted. -/
theorem currentL_not_maintained : ¬ ∃ c : GreedyDualClass, ∀ capacityBytes tr d,
    Runs (step c) Wellsized (create capacityBytes) tr d → Correct c Wellsized d := by
  rintro ⟨c, h⟩
  have hexec : (exec (step c) Wellsized (create 100) admitAndEvict).any outlives = true := by
    cases c with
    | gdsfCache => decide +kernel
    | gdSizeCache => decide +kernel
    | lfuDaCache => decide +kernel
  obtain ⟨tr, d, hrun, -, hd⟩ := exists_runs_of_any hexec
  obtain ⟨victim, hmem, hlt⟩ := List.any_eq_true.1 hd
  exact absurd (of_decide_eq_true hlt) (not_lt.2 ((h 100 tr d hrun).bounds victim hmem))

/-- An object that is admitted, read and updated, and an empty cache that is asked for a victim. -/
theorem aging_iff_unevicted : ∃ tr d,
    Runs (step .gdsfCache) Wellsized (create 100) tr d ∧
      d.cache.currentSize ≠ 0 ∧ Correct .gdsfCache Wellsized d := by
  have hexec : (exec (step .gdsfCache) Meets (create 100) [.evictVictim,
      .admitObject agedKey (.ofSize 3), .lookup agedKey, .update agedKey (.ofSize 5)]).any
        (fun d => decide (d.cache.currentSize ≠ 0)) = true := by
    decide +kernel
  obtain ⟨tr, d, hrun, -, hd⟩ := exists_runs_of_any hexec
  have hwell := hrun.mono fun _ _ h => h.1
  exact ⟨tr, d, hwell, of_decide_eq_true hd, (aging_iff .gdsfCache 100 tr d hwell).2 hrun⟩

end Covered.Cache.GreedyDual
