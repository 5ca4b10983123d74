import Covered.Common.ConcurrentHashtable
import Covered.Lib.Execution

/-!
# The size counters of the concurrent hash table

The table with its 64-bit counters. An addition that overflows ends the process; a subtraction that
underflows dumps a warning and makes the counter `0`. `CountedHashtable` is the table with the
number of these warnings, and each operation books the bytes as the source does: separately from the
update of the map, and for a call first the change of the size, then the erased pair.

While a counter is exact, what is subtracted from it is a summand of it (`Exact.sizes_le`), so no
subtraction underflows and the operations are those of `ConcurrentHashtable` (`Books`).
`counters_exact` is the result for every run.
-/

set_option autoImplicit false

namespace Covered.Common

open Lib Lib.Checked Lib.Execution UnorderedMap ConcurrentHashtable

/-- Hash table with the warnings of its counters. -/
structure CountedHashtable (V : Type) extends ConcurrentHashtable V where
  warnings : Nat := 0

namespace CountedHashtable

variable {V : Type}

/-- Whether a subtraction underflows, as a number of warnings. -/
def uint64Warning (a b : Nat) : Nat := if a < b then 1 else 0

section Operations

variable [SizeForCapacity V] (t : CountedHashtable V) (key : Key) (value : V)

def insertNew : Option (CountedHashtable V) := do
  let totalKeySize ← uint64Add t.totalKeySize key.getKeyLength
  let totalValueSize ← uint64Add t.totalValueSize (getSizeForCapacity value)
  return { t with
    hashtables := t.hashtables.insert key value
    totalKeySize := totalKeySize
    totalValueSize := totalValueSize }

def updateTotalValueSize (current original : Nat) : Option (CountedHashtable V) :=
  if current ≥ original then
    (uint64Add t.totalValueSize (current - original)).map fun totalValueSize =>
      { t with totalValueSize := totalValueSize }
  else some { t with
    totalValueSize := uint64Minus t.totalValueSize (original - current)
    warnings := t.warnings + uint64Warning t.totalValueSize (original - current) }

/-- The value of a stored key replaced, with its bytes. -/
def replace (original : V) : Option (CountedHashtable V) :=
  updateTotalValueSize { t with hashtables := t.hashtables.insert key value }
    (getSizeForCapacity value) (getSizeForCapacity original)

/-- A stored pair erased, with its bytes. -/
def eraseExisting : CountedHashtable V where
  hashtables := t.hashtables.erase key
  totalKeySize := uint64Minus t.totalKeySize key.getKeyLength
  totalValueSize := uint64Minus t.totalValueSize (getSizeForCapacity value)
  warnings := t.warnings + uint64Warning t.totalKeySize key.getKeyLength +
    uint64Warning t.totalValueSize (getSizeForCapacity value)

/-- Also `putKeyValuePair`, which does the same without the lock of the key. -/
def insertOrUpdate : Option (CountedHashtable V × Bool) :=
  match t.find key with
  | none => (t.insertNew key value).map fun t' => (t', false)
  | some stored => (t.replace key value stored).map fun t' => (t', true)

def eraseIfExist : CountedHashtable V × Bool :=
  match t.find key with
  | none => (t, false)
  | some stored => (t.eraseExisting key stored, true)

/-- A call that asks for an erasure fails the assertion, after its bytes are booked. -/
def insertOrCall (call : V → Option (V × Bool)) : Option (CountedHashtable V × Bool) :=
  match t.find key with
  | none => (t.insertNew key value).map fun t' => (t', false)
  | some stored => do
      let (stored', isErase) ← call stored
      let t' ← t.replace key stored' stored
      require (isErase = false)
      return (t', true)

def callIfExist (call : V → Option (V × Bool)) : Option (CountedHashtable V × Bool) :=
  match t.find key with
  | none => some (t, false)
  | some stored => do
      let (stored', isErase) ← call stored
      let t' ← t.replace key stored' stored
      return (if isErase = true then t'.eraseExisting key stored' else t', true)

end Operations

/-- The operations. A call on a value is any function of it. -/
inductive Action (V : Type)
  | isExist (key : Key)
  | insertOrUpdate (key : Key) (value : V)
  | insertOrCall (key : Key) (value : V) (call : V → Option (V × Bool))
  | callIfExist (key : Key) (call : V → Option (V × Bool))
  | constCallIfExist (key : Key)
  | eraseIfExist (key : Key)
  | putKeyValuePair (key : Key) (value : V)

variable [SizeForCapacity V]

/-- One operation with the flag that it returns; `none` is a failed assertion or an exit. -/
def step (t : CountedHashtable V) : Action V → Option (CountedHashtable V × Bool)
  | .isExist key => some (t, t.isExist key)
  | .insertOrUpdate key value => t.insertOrUpdate key value
  | .insertOrCall key value call => t.insertOrCall key value call
  | .callIfExist key call => t.callIfExist key call
  | .constCallIfExist key => some (t, t.isExist key)
  | .eraseIfExist key => some (t.eraseIfExist key)
  | .putKeyValuePair key value => t.insertOrUpdate key value

/-! ## Exact counters -/

/-- The bytes of the keys of a map. -/
def keyBytes (m : UnorderedMap Key V) : Nat := m.sumBy fun key _ => key.getKeyLength

/-- The bytes of the values of a map. -/
def valueBytes (m : UnorderedMap Key V) : Nat := m.sumBy fun _ value => getSizeForCapacity value

/-- The counters are the sums over the stored pairs, and no subtraction has underflowed. -/
structure Exact (t : CountedHashtable V) : Prop where
  totalKeySize : t.totalKeySize = keyBytes t.hashtables
  totalValueSize : t.totalValueSize = valueBytes t.hashtables
  keysBounded : t.totalKeySize < uint64Limit
  valuesBounded : t.totalValueSize < uint64Limit
  warnings : t.warnings = 0

/-- What an operation books is what the table without limits does. -/
structure Books (table : ConcurrentHashtable V)
    (t : CountedHashtable V) : Prop extends Exact t where
  table : t.toConcurrentHashtable = table

variable {t t' : CountedHashtable V} {key : Key} {value stored : V}

theorem Exact.sizes_le (h : Exact t) (hfind : t.find key = some stored) :
    key.getKeyLength ≤ t.totalKeySize ∧ getSizeForCapacity stored ≤ t.totalValueSize := by
  have hkeys := sumBy_erase (fun (key : Key) (_ : V) => key.getKeyLength)
    t.hashtables key
  have hvalues := sumBy_erase (fun (_ : Key) (value : V) => getSizeForCapacity value)
    t.hashtables key
  rw [find] at hfind
  rw [hfind, Option.elim_some] at hkeys hvalues
  rw [h.totalKeySize, h.totalValueSize, keyBytes, valueBytes]
  omega

theorem Exact.insertNew (h : Exact t) (hfind : t.find key = none)
    (hinsert : t.insertNew key value = some t') :
    Books (t.toConcurrentHashtable.insertNew key value) t' := by
  have hkeys := sumBy_insert (fun (key : Key) (_ : V) => key.getKeyLength)
    t.hashtables key value
  have hvalues := sumBy_insert
    (fun (_ : Key) (value : V) => getSizeForCapacity value) t.hashtables key value
  rw [find] at hfind
  rw [hfind, Option.elim_none, Nat.add_zero] at hkeys hvalues
  simp only [CountedHashtable.insertNew, bind_eq_some_iff, pure_eq_some_iff] at hinsert
  obtain ⟨totalKeySize, hkeySize, totalValueSize, hvalueSize, rfl⟩ := hinsert
  have hkeySum := uint64Add_eq_some hkeySize
  have hvalueSum := uint64Add_eq_some hvalueSize
  constructor
  · constructor
    · rw [keyBytes, hkeys, hkeySum, h.totalKeySize, keyBytes]
    · rw [valueBytes, hvalues, hvalueSum, h.totalValueSize, valueBytes]
    · exact uint64Add_lt hkeySize
    · exact uint64Add_lt hvalueSize
    · exact h.warnings
  · rw [hkeySum, hvalueSum]
    rfl

theorem Exact.replace (h : Exact t) (hfind : t.find key = some stored)
    (hreplace : t.replace key value stored = some t') :
    Books (t.toConcurrentHashtable.replace key stored value) t' ∧ t'.find key = some value := by
  obtain ⟨-, hle⟩ := h.sizes_le hfind
  have hbounded := h.valuesBounded
  have hkeys := sumBy_insert (fun (key : Key) (_ : V) => key.getKeyLength)
    t.hashtables key value
  have hvalues := sumBy_insert
    (fun (_ : Key) (value : V) => getSizeForCapacity value) t.hashtables key value
  rw [find] at hfind
  rw [hfind, Option.elim_some] at hkeys hvalues
  have hkeySize : t.totalKeySize = keyBytes (t.hashtables.insert key value) := by
    rw [h.totalKeySize, keyBytes, keyBytes]
    omega
  have hvalueSize : t.totalValueSize + getSizeForCapacity value =
      valueBytes (t.hashtables.insert key value) + getSizeForCapacity stored := by
    rw [h.totalValueSize, valueBytes, valueBytes]
    omega
  have hstored : (t.hashtables.insert key value).lookup key = some value := AList.lookup_insert _
  rw [CountedHashtable.replace, CountedHashtable.updateTotalValueSize] at hreplace
  split at hreplace
  · next hge =>
    -- the value has grown
    obtain ⟨totalValueSize, hadd, rfl⟩ := Option.map_eq_some_iff.1 hreplace
    have hsum : totalValueSize = t.totalValueSize +
        (getSizeForCapacity value - getSizeForCapacity stored) := uint64Add_eq_some hadd
    refine ⟨⟨⟨hkeySize, ?_, h.keysBounded, uint64Add_lt hadd, h.warnings⟩, ?_⟩, hstored⟩
    · dsimp only
      omega
    · rw [ConcurrentHashtable.replace, ConcurrentHashtable.updateTotalValueSize, if_pos hge, hsum]
  · next hlt =>
    -- the value has shrunk, by at most its bytes
    rw [Option.some.injEq] at hreplace
    subst hreplace
    have hminus : uint64Minus t.totalValueSize
        (getSizeForCapacity stored - getSizeForCapacity value) =
          t.totalValueSize - (getSizeForCapacity stored - getSizeForCapacity value) :=
      uint64Minus_eq hbounded (by omega)
    have hwarning : uint64Warning t.totalValueSize
        (getSizeForCapacity stored - getSizeForCapacity value) = 0 := if_neg (by omega)
    refine ⟨⟨⟨hkeySize, ?_, h.keysBounded, ?_, ?_⟩, ?_⟩, hstored⟩
    · dsimp only
      omega
    · dsimp only
      omega
    · dsimp only
      rw [h.warnings, hwarning]
    · rw [ConcurrentHashtable.replace, ConcurrentHashtable.updateTotalValueSize, if_neg hlt, hminus]

theorem Exact.eraseExisting (h : Exact t) (hfind : t.find key = some stored) :
    Books (t.toConcurrentHashtable.eraseExisting key stored) (t.eraseExisting key stored) := by
  obtain ⟨hkey, hvalue⟩ := h.sizes_le hfind
  have hkeys := sumBy_erase (fun (key : Key) (_ : V) => key.getKeyLength)
    t.hashtables key
  have hvalues := sumBy_erase (fun (_ : Key) (value : V) => getSizeForCapacity value)
    t.hashtables key
  rw [find] at hfind
  rw [hfind, Option.elim_some] at hkeys hvalues
  have hminusKey := uint64Minus_eq h.keysBounded hkey
  have hminusValue := uint64Minus_eq h.valuesBounded hvalue
  have hkeySize := h.totalKeySize
  have hvalueSize := h.totalValueSize
  have hkeysBounded := h.keysBounded
  have hvaluesBounded := h.valuesBounded
  rw [keyBytes] at hkeySize
  rw [valueBytes] at hvalueSize
  rw [CountedHashtable.eraseExisting, hminusKey, hminusValue]
  refine ⟨⟨?_, ?_, ?_, ?_, ?_⟩, rfl⟩
  · dsimp only [keyBytes]
    omega
  · dsimp only [valueBytes]
    omega
  · dsimp only
    omega
  · dsimp only
    omega
  · dsimp only
    rw [h.warnings, uint64Warning, if_neg (by omega), uint64Warning, if_neg (by omega)]

variable {isExist : Bool} {call : V → Option (V × Bool)}

theorem Exact.insertOrUpdate (h : Exact t)
    (hcall : t.insertOrUpdate key value = some (t', isExist)) :
    Exact t' ∧ t.toConcurrentHashtable.insertOrUpdate key value =
      (t'.toConcurrentHashtable, isExist) := by
  rw [CountedHashtable.insertOrUpdate] at hcall
  rw [ConcurrentHashtable.insertOrUpdate]
  cases hfind : t.find key with
  | none =>
    simp only [hfind, Option.map_eq_some_iff, Prod.mk.injEq] at hcall
    obtain ⟨table, hinsert, rfl, rfl⟩ := hcall
    have hbooks := h.insertNew hfind hinsert
    exact ⟨hbooks.toExact, by rw [hbooks.table]⟩
  | some stored =>
    simp only [hfind, Option.map_eq_some_iff, Prod.mk.injEq] at hcall
    obtain ⟨table, hreplace, rfl, rfl⟩ := hcall
    obtain ⟨hbooks, -⟩ := h.replace hfind hreplace
    exact ⟨hbooks.toExact, by rw [hbooks.table]⟩

theorem Exact.eraseIfExist (h : Exact t) (key : Key) :
    Exact (t.eraseIfExist key).1 ∧ t.toConcurrentHashtable.eraseIfExist key =
      ((t.eraseIfExist key).1.toConcurrentHashtable, (t.eraseIfExist key).2) := by
  rw [CountedHashtable.eraseIfExist, ConcurrentHashtable.eraseIfExist]
  cases hfind : t.find key with
  | none => exact ⟨h, rfl⟩
  | some stored =>
    have hbooks := h.eraseExisting hfind
    exact ⟨hbooks.toExact, by rw [hbooks.table]⟩

theorem Exact.insertOrCall (h : Exact t)
    (hcall : t.insertOrCall key value call = some (t', isExist)) : Exact t' := by
  rw [CountedHashtable.insertOrCall] at hcall
  cases hfind : t.find key with
  | none =>
    simp only [hfind, Option.map_eq_some_iff, Prod.mk.injEq] at hcall
    obtain ⟨table, hinsert, rfl, rfl⟩ := hcall
    exact (h.insertNew hfind hinsert).toExact
  | some stored =>
    simp only [hfind, bind_eq_some_iff, pure_eq_some_iff, Prod.mk.injEq] at hcall
    obtain ⟨⟨stored', isErase⟩, -, table, hreplace, -, -, rfl, rfl⟩ := hcall
    exact (h.replace hfind hreplace).1.toExact

/-- The erasure that a call asks for takes away the bytes that the call has left. -/
theorem Exact.callIfExist (h : Exact t)
    (hcall : t.callIfExist key call = some (t', isExist)) : Exact t' := by
  rw [CountedHashtable.callIfExist] at hcall
  cases hfind : t.find key with
  | none =>
    simp only [hfind, Option.some.injEq, Prod.mk.injEq] at hcall
    obtain ⟨rfl, rfl⟩ := hcall
    exact h
  | some stored =>
    simp only [hfind, bind_eq_some_iff, pure_eq_some_iff, Prod.mk.injEq] at hcall
    obtain ⟨⟨stored', isErase⟩, -, table, hreplace, rfl, rfl⟩ := hcall
    obtain ⟨hbooks, hstored⟩ := h.replace hfind hreplace
    cases isErase with
    | false => exact hbooks.toExact
    | true => exact (hbooks.toExact.eraseExisting hstored).toExact

theorem Exact.step {a : Action V} (h : Exact t)
    (hstep : t.step a = some (t', isExist)) : Exact t' := by
  cases a with
  | isExist key =>
    simp only [CountedHashtable.step, Option.some.injEq, Prod.mk.injEq] at hstep
    exact hstep.1 ▸ h
  | insertOrUpdate key value => exact (h.insertOrUpdate hstep).1
  | insertOrCall key value call => exact h.insertOrCall hstep
  | callIfExist key call => exact h.callIfExist hstep
  | constCallIfExist key =>
    simp only [CountedHashtable.step, Option.some.injEq, Prod.mk.injEq] at hstep
    exact hstep.1 ▸ h
  | eraseIfExist key =>
    rw [CountedHashtable.step, Option.some.injEq] at hstep
    have hexact := (h.eraseIfExist key).1
    rw [hstep] at hexact
    exact hexact
  | putKeyValuePair key value => exact (h.insertOrUpdate hstep).1

/-- In every run of the operations on an empty table, whatever their calls do to a value, the
counters are the sums over the stored pairs and no subtraction underflows. -/
theorem counters_exact {tr : List (Action V × Bool)} (hrun : Runs step anyAction {} tr t) :
    t.totalKeySize = keyBytes t.hashtables ∧ t.totalValueSize = valueBytes t.hashtables ∧
      t.warnings = 0 := by
  have hexact : Exact t :=
    hrun.invariant ⟨rfl, rfl, Nat.two_pow_pos 64, Nat.two_pow_pos 64, rfl⟩
      fun h _ hstep => h.step hstep
  exact ⟨hexact.totalKeySize, hexact.totalValueSize, hexact.warnings⟩

/-- Bytes as values, each counted once. -/
instance : SizeForCapacity (List UInt8) := ⟨List.length⟩

/-- A value grows in a call, shrinks in a second one and is erased by a third one. -/
theorem counters_exact_erased : ∃ tr, ∃ t : CountedHashtable (List UInt8),
    Runs step anyAction {} tr t ∧ t.totalKeySize = 1 ∧ t.totalValueSize = 2 ∧ t.warnings = 0 ∧
      t.totalKeySize = keyBytes t.hashtables := by
  have hexec : (exec step anyAction ({} : CountedHashtable (List UInt8))
      [.insertOrUpdate ⟨[1]⟩ [7, 7], .insertOrCall ⟨[2, 2]⟩ [5] fun v => some (v, false),
        .callIfExist ⟨[2, 2]⟩ fun v => some (v ++ [5, 5], false),
        .callIfExist ⟨[2, 2]⟩ fun v => some (v.tail, false),
        .callIfExist ⟨[2, 2]⟩ fun v => some (v.tail, true)]).any
        (fun t => decide (t.totalKeySize = 1 ∧ t.totalValueSize = 2)) = true := by
    decide +kernel
  obtain ⟨tr, t, hrun, -, ht⟩ := exists_runs_of_any hexec
  have hsizes := of_decide_eq_true ht
  have hexact := counters_exact hrun
  exact ⟨tr, t, hrun, hsizes.1, hsizes.2, hexact.2.2, hexact.1⟩

end CountedHashtable

end Covered.Common
