import Covered.Common.ConcurrentHashtable

/-!
# The local edge cache with validity flags

The cache wrapper of an edge joins the local cache with the validity map. Each of its functions
holds the lock of its key, so it is one atomic step. Whether the local cache takes a value is its
own decision (a value may be too large), so the functions that store a value get the outcome as a
parameter.

`get` sees valid objects only. Each function that stores something has one lemma that says what
`get` answers after it.
-/

set_option autoImplicit false

namespace Covered.Cache

open Common Lib.Checked

/-- A stored value or the mark that the key is deleted. -/
structure Value where
  isDeleted : Bool
  valuesize : Nat
  size_of_deleted : isDeleted = true → valuesize = 0
deriving DecidableEq

/-- The value of a deleted key. -/
def deletedValue : Value := ⟨true, 0, fun _ => rfl⟩

/-- A value of the given size. -/
def Value.ofSize (valuesize : Nat) : Value := ⟨false, valuesize, fun h => nomatch h⟩

/-- `ObjectSize`: key and value bytes as an unsigned 32-bit number. -/
def objectSize (key : Key) (value : Value) : Nat := (key.getKeyLength + value.valuesize) % 2 ^ 32

/-- Key and value bytes are a 32-bit number, as the type of object sizes promises. -/
def ObjectFits (key : Key) (value : Value) : Prop := key.getKeyLength + value.valuesize < 2 ^ 32

instance (key : Key) (value : Value) : Decidable (ObjectFits key value) :=
  inferInstanceAs (Decidable (_ < _))

theorem objectSize_of_objectFits {key : Key} {value : Value} (h : ObjectFits key value) :
    objectSize key value = key.getKeyLength + value.valuesize :=
  Nat.mod_eq_of_lt h

/-- A value with the number of writes of its key that the cloud had applied with it. The program has
no such number: it says which of two values of a key is older. -/
structure Versioned where
  value : Value
  version : Nat
deriving DecidableEq

/-- A cached value and its flag in the validity map. -/
structure CachedObject where
  value : Versioned
  isValid : Bool
deriving DecidableEq

/-- The objects that an edge caches. -/
structure CacheWrapper where
  object : Key → Option CachedObject := fun _ => none

namespace CacheWrapper

def setObject (c : CacheWrapper) (key : Key) (o : Option CachedObject) : CacheWrapper :=
  ⟨Function.update c.object key o⟩

def isLocalCached (c : CacheWrapper) (key : Key) : Bool :=
  (c.object key).isSome

/-- The value of a key that is cached and valid. -/
def get (c : CacheWrapper) (key : Key) : Option Versioned :=
  match c.object key with
  | some o => if o.isValid then some o.value else none
  | none => none

/-- An object after the local cache got a new value: valid if it took the value, else invalid. -/
def updateObject (o : CachedObject) (v : Versioned) (isSuccessful : Bool) : CachedObject :=
  if isSuccessful then ⟨v, true⟩ else { o with isValid := false }

/-- Update for a write of a client; only a cached key is updated. -/
def update (c : CacheWrapper) (key : Key) (v : Versioned) (isSuccessful : Bool) : CacheWrapper :=
  match c.object key with
  | some o => c.setObject key (some (updateObject o v isSuccessful))
  | none => c

/-- Update of an invalid object with the value of a get. -/
def updateIfInvalidForGetrsp (c : CacheWrapper) (key : Key) (v : Versioned)
    (isSuccessful : Bool) : CacheWrapper :=
  match c.object key with
  | some o =>
      if o.isValid then c else c.setObject key (some (updateObject o v isSuccessful))
  | none => c

/-- The value of a key after an admission: the local cache keeps the value of a key that is already
cached. -/
def admittedValue (c : CacheWrapper) (key : Key) (v : Versioned) : Versioned :=
  ((c.object key).map CachedObject.value).getD v

/-- `CacheWrapper::admit`: store an object and set its validity flag. -/
def admitObject (c : CacheWrapper) (key : Key) (v : Versioned) (isValid isSuccessful : Bool) :
    CacheWrapper :=
  if isSuccessful then c.setObject key (some ⟨c.admittedValue key v, isValid⟩) else c

def invalidateKeyForLocalCachedObject (c : CacheWrapper) (key : Key) : CacheWrapper :=
  c.setObject key ((c.object key).map fun o => { o with isValid := false })

def evict (c : CacheWrapper) (key : Key) : CacheWrapper :=
  c.setObject key none

/-! ## What `get` answers afterwards -/

variable (c : CacheWrapper) (key k : Key) (v : Versioned) (isSuccessful : Bool)

theorem object_setObject (o : Option CachedObject) :
    (c.setObject key o).object k = if k = key then o else c.object k :=
  Function.update_apply c.object key o k

theorem get_setObject (o : Option CachedObject) :
    (c.setObject key o).get k =
      if k = key then o.bind fun o => if o.isValid then some o.value else none else c.get k := by
  unfold get
  rw [object_setObject]
  by_cases hk : k = key
  · rw [if_pos hk, if_pos hk]
    cases o <;> rfl
  · rw [if_neg hk, if_neg hk]

theorem get_update :
    (c.update key v isSuccessful).get k =
      if k = key ∧ c.isLocalCached key = true then if isSuccessful then some v else none
      else c.get k := by
  unfold update isLocalCached
  cases ho : c.object key with
  | none => simp
  | some o =>
    simp only [get_setObject, Option.bind_some, Option.isSome_some, and_true]
    cases isSuccessful with
    | true => simp [updateObject]
    | false => simp [updateObject]

theorem get_updateIfInvalidForGetrsp :
    (c.updateIfInvalidForGetrsp key v isSuccessful).get k =
      if k = key ∧ c.isLocalCached key = true ∧ c.get key = none ∧ isSuccessful = true then some v
      else c.get k := by
  unfold updateIfInvalidForGetrsp isLocalCached
  cases ho : c.object key with
  | none => simp
  | some o =>
    cases hvalid : o.isValid with
    | true => simp [get, ho, hvalid]
    | false =>
      have hnone : c.get key = none := by simp [get, ho, hvalid]
      simp only [hvalid, Bool.false_eq_true, if_false, get_setObject, Option.bind_some, hnone,
        Option.isSome_some, true_and]
      cases isSuccessful with
      | true => simp [updateObject]
      | false =>
        simp only [updateObject, Bool.false_eq_true, if_false, and_false]
        split
        · next hk => rw [hk, hnone]
        · rfl

theorem get_admitObject (isValid : Bool) :
    (c.admitObject key v isValid isSuccessful).get k =
      if k = key ∧ isSuccessful = true then if isValid then some (c.admittedValue key v) else none
      else c.get k := by
  rw [admitObject]
  cases isSuccessful with
  | true => simp [get_setObject]
  | false => simp

theorem get_invalidate :
    (c.invalidateKeyForLocalCachedObject key).get k = if k = key then none else c.get k := by
  rw [invalidateKeyForLocalCachedObject, get_setObject]
  cases c.object key <;> simp

theorem get_evict : (c.evict key).get k = if k = key then none else c.get k := by
  rw [evict, get_setObject]
  rfl

/-! ## Which keys are cached afterwards -/

theorem isLocalCached_setObject (o : Option CachedObject) :
    (c.setObject key o).isLocalCached k = if k = key then o.isSome else c.isLocalCached k := by
  rw [isLocalCached, object_setObject]
  split <;> rfl

/-- A key that gets a new object although it had one. -/
theorem isLocalCached_setObject_of_cached {o o' : CachedObject} (h : c.object key = some o) :
    (c.setObject key (some o')).isLocalCached k = c.isLocalCached k := by
  rw [isLocalCached_setObject]
  split
  · next hk => rw [hk, isLocalCached, h, Option.isSome_some, Option.isSome_some]
  · rfl

theorem isLocalCached_update :
    (c.update key v isSuccessful).isLocalCached k = c.isLocalCached k := by
  rw [update]
  split
  · next ho => exact isLocalCached_setObject_of_cached c key k ho
  · rfl

theorem isLocalCached_updateIfInvalidForGetrsp :
    (c.updateIfInvalidForGetrsp key v isSuccessful).isLocalCached k = c.isLocalCached k := by
  rw [updateIfInvalidForGetrsp]
  split
  · next ho =>
    split
    · rfl
    · exact isLocalCached_setObject_of_cached c key k ho
  · rfl

theorem isLocalCached_admitObject (isValid : Bool) :
    (c.admitObject key v isValid isSuccessful).isLocalCached k =
      if k = key ∧ isSuccessful = true then true else c.isLocalCached k := by
  rw [admitObject]
  cases isSuccessful with
  | true => simp [isLocalCached_setObject]
  | false => simp

theorem isLocalCached_invalidate :
    (c.invalidateKeyForLocalCachedObject key).isLocalCached k = c.isLocalCached k := by
  rw [invalidateKeyForLocalCachedObject, isLocalCached_setObject, Option.isSome_map]
  split
  · next hk => rw [hk, isLocalCached]
  · rfl

theorem isLocalCached_evict :
    (c.evict key).isLocalCached k = if k = key then false else c.isLocalCached k := by
  rw [evict, isLocalCached_setObject]
  rfl

end CacheWrapper

/-! ## Eviction -/

/-- `evictForFineGrainedManagement_` with the two functions of a local cache that it calls: the key
that the first returns is evicted with the second. That there is no victim, or that the victim is
not cached, ends the process. -/
def evictForFineGrainedManagement {σ : Type} (getVictimKey : σ → Option (σ × Option Key))
    (evictWithGivenKey : σ → Key → Option (σ × Bool)) (s : σ) : Option σ := do
  let r ← getVictimKey s
  let victim ← r.2
  let r' ← evictWithGivenKey r.1 victim
  require (r'.2 = true)
  return r'.1

section Eviction

variable {σ : Type} {getVictimKey : σ → Option (σ × Option Key)}
  {evictWithGivenKey : σ → Key → Option (σ × Bool)} {s t u : σ}

theorem evictForFineGrainedManagement_eq_some_iff :
    evictForFineGrainedManagement getVictimKey evictWithGivenKey s = some u ↔
      ∃ t key, getVictimKey s = some (t, some key) ∧ evictWithGivenKey t key = some (u, true) := by
  constructor
  · intro h
    simp only [evictForFineGrainedManagement, bind_eq_some_iff, pure_eq_some_iff,
      require_eq_some_iff] at h
    obtain ⟨⟨t, victim⟩, hvictim, key, rfl, ⟨u', isEvict⟩, hevict, -, rfl, rfl⟩ := h
    exact ⟨t, key, hvictim, hevict⟩
  · rintro ⟨t, key, hvictim, hevict⟩
    simp only [evictForFineGrainedManagement, hvictim, some_bind, hevict, require_bind,
      Option.pure_def]

/-- Without a victim the process ends. -/
theorem evictForFineGrainedManagement_eq_none (h : getVictimKey s = some (t, none)) :
    evictForFineGrainedManagement getVictimKey evictWithGivenKey s = none := by
  simp only [evictForFineGrainedManagement, h, Option.bind_eq_bind, Option.bind_some,
    Option.bind_none]

end Eviction

end Covered.Cache
