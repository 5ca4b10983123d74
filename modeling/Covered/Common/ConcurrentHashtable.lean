import Covered.Common.Util
import Covered.Lib.UnorderedMap

/-!
# The concurrent hash table

A table from keys to values with the byte counters of its keys and values. Every operation holds
the lock of its key, so it is one atomic function here. An operation on a value is a call
`V → Option (V × Bool × ρ)`: it returns the updated value, whether the pair is to be erased, and
its result; `none` is an assertion that failed in it.

The buckets of the source partition the keys and are one map here. The byte counters are natural
numbers: they count live bytes, which a 64-bit counter holds.
-/

set_option autoImplicit false

namespace Covered.Common

open Lib Lib.Checked Function

/-- Values whose bytes count for the cache capacity. -/
class SizeForCapacity (V : Type) where
  getSizeForCapacity : V → Nat

export SizeForCapacity (getSizeForCapacity)

/-- Hash table with its byte counters. -/
structure ConcurrentHashtable (V : Type) where
  hashtables : UnorderedMap Key V := ∅
  totalKeySize : Nat := 0
  totalValueSize : Nat := 0

namespace ConcurrentHashtable

variable {V ρ : Type}

/-- The value stored for a key. -/
def find (table : ConcurrentHashtable V) (key : Key) : Option V := table.hashtables.lookup key

/-- Whether a key is stored. -/
def isExist (table : ConcurrentHashtable V) (key : Key) : Bool := (table.find key).isSome

variable [SizeForCapacity V]

/-- Replace the value counted as `original` by one counted as `current`. -/
def updateTotalValueSize (totalValueSize current original : Nat) : Nat :=
  if current ≥ original then totalValueSize + (current - original)
  else totalValueSize - (original - current)

/-- Store a new pair, with its bytes. -/
def insertNew (table : ConcurrentHashtable V) (key : Key) (value : V) : ConcurrentHashtable V where
  hashtables := table.hashtables.insert key value
  totalKeySize := table.totalKeySize + key.getKeyLength
  totalValueSize := table.totalValueSize + getSizeForCapacity value

/-- Replace the value of a stored key, with its bytes. -/
def replace (table : ConcurrentHashtable V) (key : Key) (original value : V) :
    ConcurrentHashtable V where
  hashtables := table.hashtables.insert key value
  totalKeySize := table.totalKeySize
  totalValueSize :=
    updateTotalValueSize table.totalValueSize (getSizeForCapacity value)
      (getSizeForCapacity original)

/-- Erase a stored pair, with its bytes. -/
def eraseExisting (table : ConcurrentHashtable V) (key : Key) (value : V) :
    ConcurrentHashtable V where
  hashtables := table.hashtables.erase key
  totalKeySize := table.totalKeySize - key.getKeyLength
  totalValueSize := table.totalValueSize - getSizeForCapacity value

/-- Insert a new pair or replace the stored value; also returns whether the key existed. -/
def insertOrUpdate (table : ConcurrentHashtable V) (key : Key) (value : V) :
    ConcurrentHashtable V × Bool :=
  match table.find key with
  | none => (table.insertNew key value, false)
  | some stored => (table.replace key stored value, true)

/-- Erase the pair of a key if there is one; also returns whether the key existed. -/
def eraseIfExist (table : ConcurrentHashtable V) (key : Key) : ConcurrentHashtable V × Bool :=
  match table.find key with
  | none => (table, false)
  | some stored => (table.eraseExisting key stored, true)

/-- Insert `value` for a new key, else call the stored value; the call must not erase. The result
is absent iff the key was new. -/
def insertOrCall (table : ConcurrentHashtable V) (key : Key) (value : V)
    (call : V → Option (V × Bool × ρ)) : Option (ConcurrentHashtable V × Option ρ) :=
  match table.find key with
  | none => some (table.insertNew key value, none)
  | some stored => do
      let (stored', isErase, result) ← call stored
      require (isErase = false)
      return (table.replace key stored stored', some result)

/-- Call the stored value if the key exists, and erase the pair if the call says so. -/
def callIfExist (table : ConcurrentHashtable V) (key : Key) (call : V → Option (V × Bool × ρ)) :
    Option (ConcurrentHashtable V × Option ρ) :=
  match table.find key with
  | none => some (table, none)
  | some stored => do
      let (stored', isErase, result) ← call stored
      let table' := table.replace key stored stored'
      return (if isErase then table'.eraseExisting key stored' else table', some result)

/-- Read the stored value if the key exists. -/
def constCallIfExist (table : ConcurrentHashtable V) (key : Key) (call : V → ρ) : Option ρ :=
  (table.find key).map call

/-! ## What the operations store -/

omit [SizeForCapacity V] in
@[simp] theorem find_empty (key : Key) : ({} : ConcurrentHashtable V).find key = none :=
  AList.lookup_empty key

@[simp] theorem find_insertNew (table : ConcurrentHashtable V) (key : Key) (value : V) :
    (table.insertNew key value).find = update table.find key (some value) := by
  funext k
  simp only [find, insertNew, UnorderedMap.lookup_insert_eq, update_apply]

@[simp] theorem find_replace (table : ConcurrentHashtable V) (key : Key) (original value : V) :
    (table.replace key original value).find = update table.find key (some value) := by
  funext k
  simp only [find, replace, UnorderedMap.lookup_insert_eq, update_apply]

@[simp] theorem find_eraseExisting (table : ConcurrentHashtable V) (key : Key) (value : V) :
    (table.eraseExisting key value).find = update table.find key none := by
  funext k
  simp only [find, eraseExisting, UnorderedMap.lookup_erase_eq, update_apply]

theorem find_insertOrUpdate (table : ConcurrentHashtable V) (key : Key) (value : V) :
    (table.insertOrUpdate key value).1.find = update table.find key (some value) := by
  rw [insertOrUpdate]
  cases table.find key with
  | none => exact find_insertNew table key value
  | some stored => exact find_replace table key stored value

theorem find_eraseIfExist (table : ConcurrentHashtable V) (key : Key) :
    (table.eraseIfExist key).1.find = update table.find key none := by
  rw [eraseIfExist]
  cases hfind : table.find key with
  | none => exact (update_eq_self_iff.2 hfind.symm).symm
  | some stored => exact find_eraseExisting table key stored

theorem eraseIfExist_snd (table : ConcurrentHashtable V) (key : Key) :
    (table.eraseIfExist key).2 = table.isExist key := by
  rw [eraseIfExist, isExist]
  cases table.find key <;> rfl

variable {table table' : ConcurrentHashtable V} {call : V → Option (V × Bool × ρ)}

/-- An `insertOrCall` that did not abort stored a new pair or updated the stored value. -/
theorem insertOrCall_spec {key : Key} {value : V} {result : Option ρ}
    (h : table.insertOrCall key value call = some (table', result)) :
    (table.find key = none ∧ result = none ∧
        table'.find = update table.find key (some value)) ∨
      ∃ stored stored' r, table.find key = some stored ∧ call stored = some (stored', false, r) ∧
        result = some r ∧ table'.find = update table.find key (some stored') := by
  unfold insertOrCall at h
  cases hfind : table.find key with
  | none =>
    simp only [hfind, Option.some.injEq, Prod.mk.injEq] at h
    obtain ⟨rfl, rfl⟩ := h
    exact .inl ⟨rfl, rfl, find_insertNew table key value⟩
  | some stored =>
    simp only [hfind, bind_eq_some_iff (x := call stored), require_bind_iff, pure_eq_some_iff,
      Prod.mk.injEq] at h
    obtain ⟨⟨stored', isErase, r⟩, hcall, rfl, rfl, rfl⟩ := h
    exact .inr ⟨stored, stored', r, rfl, hcall, rfl, find_replace table key stored stored'⟩

/-- A `callIfExist` that did not abort left an absent key alone or ran the call on the stored
value. -/
theorem callIfExist_spec {key : Key} {result : Option ρ}
    (h : table.callIfExist key call = some (table', result)) :
    (table.find key = none ∧ result = none ∧ table' = table) ∨
      ∃ stored stored' isErase r, table.find key = some stored ∧
        call stored = some (stored', isErase, r) ∧ result = some r ∧
        table'.find =
          update table.find key (if isErase = true then none else some stored') := by
  unfold callIfExist at h
  cases hfind : table.find key with
  | none =>
    simp only [hfind, Option.some.injEq, Prod.mk.injEq] at h
    exact .inl ⟨rfl, h.2.symm, h.1.symm⟩
  | some stored =>
    simp only [hfind, bind_eq_some_iff] at h
    obtain ⟨⟨stored', isErase, r⟩, hcall, h⟩ := h
    simp only [pure_eq_some_iff, Prod.mk.injEq] at h
    obtain ⟨rfl, rfl⟩ := h
    refine .inr ⟨stored, stored', isErase, r, rfl, hcall, rfl, ?_⟩
    cases isErase <;> simp

/-- `insertOrCall` aborts only in the call. -/
theorem insertOrCall_isSome (table : ConcurrentHashtable V) (key : Key) (value : V)
    (call : V → Option (V × Bool × ρ))
    (h : ∀ stored, table.find key = some stored →
      ∃ stored' r, call stored = some (stored', false, r)) :
    ∃ table' result, table.insertOrCall key value call = some (table', result) := by
  unfold insertOrCall
  cases hfind : table.find key with
  | none => exact ⟨_, _, rfl⟩
  | some stored =>
    obtain ⟨stored', r, hcall⟩ := h stored hfind
    exact ⟨table.replace key stored stored', some r, by simp [hcall, require]⟩

/-- `callIfExist` aborts only in the call. -/
theorem callIfExist_isSome (table : ConcurrentHashtable V) (key : Key)
    (call : V → Option (V × Bool × ρ))
    (h : ∀ stored, table.find key = some stored → ∃ p, call stored = some p) :
    ∃ table' result, table.callIfExist key call = some (table', result) := by
  unfold callIfExist
  cases hfind : table.find key with
  | none => exact ⟨_, _, rfl⟩
  | some stored =>
    obtain ⟨⟨stored', isErase, r⟩, hcall⟩ := h stored hfind
    simp only [hcall]
    exact ⟨_, _, rfl⟩

end ConcurrentHashtable

end Covered.Common
