import Mathlib.Data.UInt
import Covered.Common.DynamicArray
import Covered.Common.Util

/-!
# Bounds checks of payloads

The accessors of a `DynamicArray` take a position and a length, both 32-bit numbers, and compare
their sum with the size or the capacity before they copy bytes. The sum is one of 32-bit numbers. If
it wraps around, the check may pass although the bytes are outside.

Here the sum is taken as the code takes it, and a copy says whether it stays within the bytes: it
reads below the size and writes below the capacity.
`InRange` is the condition on position, length and limit under which the check is right, and
`accessors_sound_iff` the theorem: an accessor takes the error branch, or copies within the bytes
and leaves the others as they are, iff that condition holds.
-/

set_option autoImplicit false

namespace Covered.Common

open Covered.Lib.ByteStream

/-- How an access ends: the error branch, a copy of bytes that are not there, or a result. -/
inductive Access (α : Type) where
  | error
  | outOfBounds
  | done (result : α)

namespace Access

variable {α β : Type}

def bind (x : Access α) (f : α → Access β) : Access β :=
  match x with
  | .error => .error
  | .outOfBounds => .outOfBounds
  | .done result => f result

def map (f : α → β) (x : Access α) : Access β := x.bind fun result => .done (f result)

/-- No access is out of bounds, and the result has the property. -/
def Sound (P : α → Prop) : Access α → Prop
  | .error => True
  | .outOfBounds => False
  | .done result => P result

variable {P : α → Prop} {Q : β → Prop} {x : Access α}

@[simp] theorem bind_done (result : α) (f : α → Access β) : (done result).bind f = f result := rfl

theorem sound_map {f : α → β} : (x.map f).Sound Q ↔ x.Sound fun result => Q (f result) := by
  cases x with
  | error => exact Iff.rfl
  | outOfBounds => exact Iff.rfl
  | done result => exact Iff.rfl

theorem sound_bind {f : α → Access β} : (x.bind f).Sound Q ↔ x.Sound fun r => (f r).Sound Q := by
  cases x with
  | error => exact Iff.rfl
  | outOfBounds => exact Iff.rfl
  | done result => exact Iff.rfl

/-- A property of every result that there can be. -/
theorem sound_iff_of_forall (h : ∀ result, x = .done result → P result) :
    x.Sound P ↔ x.Sound fun _ => True := by
  cases x with
  | error => exact Iff.rfl
  | outOfBounds => exact Iff.rfl
  | done result => exact iff_of_true (h result rfl) trivial

end Access

/-- The sum of position and length does not wrap around, or it is above the limit nevertheless. -/
def InRange (position length : UInt32) (limit : Nat) : Prop :=
  position.toNat + length.toNat < 2 ^ 32 ∨ limit < (position + length).toNat

instance (position length : UInt32) (limit : Nat) : Decidable (InRange position length limit) :=
  inferInstanceAs (Decidable (_ ∨ _))

theorem toNat_add_of_lt {position length : UInt32} (h : position.toNat + length.toNat < 2 ^ 32) :
    (position + length).toNat = position.toNat + length.toNat := by
  rw [UInt32.toNat_add, Nat.mod_eq_of_lt h]

namespace DynamicArray

/-! ## The accessors -/

theorem length_written_le {array : DynamicArray} {n position : Nat} {data : List UInt8}
    (hcapacity : ¬ n > array.capacity) :
    ((overwritten (resized array.bytes n) position data).take
      (resized array.bytes n).length).length ≤ array.capacity := by
  have hfits := array.fits
  rw [List.length_take, resized, List.length_append, List.length_replicate]
  omega

/-- The bytes from a position that `memcpy` copies, if they are all there. -/
def bytesAt (array : DynamicArray) (position length : UInt32) : Access (List UInt8) :=
  if position.toNat + length.toNat ≤ array.bytes.length then
    .done ((array.bytes.drop position.toNat).take length.toNat)
  else .outOfBounds

/-- Check the capacity, grow to the sum, and copy data to the position, within the capacity. The
data is touched by the copy only. What is copied behind the size is not part of the array. -/
def write (array : DynamicArray) (position length : UInt32) (source : Access (List UInt8)) :
    Access DynamicArray :=
  if hcapacity : (position + length).toNat > array.capacity then .error
  else source.bind fun data =>
    let bytes := resized array.bytes (position + length).toNat
    if data = [] ∨ position.toNat + data.length ≤ array.capacity then
      .done { array with
        bytes := (overwritten bytes position.toNat data).take bytes.length
        fits := length_written_le hcapacity }
    else .outOfBounds

/-- Check the size, and copy bytes from the position. -/
def read (array : DynamicArray) (position length : UInt32) : Access (List UInt8) :=
  if (position + length).toNat > array.bytes.length then .error
  else array.bytesAt position length

namespace Checked32

/-- `memcpy` into the array; the data has the given length. -/
def deserialize (array : DynamicArray) (position : UInt32) (data : Access (List UInt8))
    (length : UInt32) : Access DynamicArray :=
  array.write position length data

/-- `memset`. -/
def arrayset (array : DynamicArray) (position : UInt32) (charval : UInt8) (length : UInt32) :
    Access DynamicArray :=
  array.write position length (.done (List.replicate length.toNat charval))

/-- Read from a file, which may have fewer bytes left. -/
def readBinaryFile (array : DynamicArray) (position : UInt32) (file : List UInt8)
    (length : UInt32) : Access DynamicArray :=
  array.write position length (.done (file.take length.toNat))

/-- `memcpy` out of the array. -/
def serialize (array : DynamicArray) (position length : UInt32) : Access (List UInt8) :=
  array.read position length

/-- Append to a file. -/
def writeBinaryFile (array : DynamicArray) (position : UInt32) (file : List UInt8)
    (length : UInt32) : Access (List UInt8) :=
  (array.read position length).map (file ++ ·)

/-- Check the size here and the capacity there before bytes are copied. -/
def arraycpy (array : DynamicArray) (position : UInt32) (dstarray : DynamicArray)
    (dstarrayPosition length : UInt32) : Access DynamicArray :=
  if (position + length).toNat > array.bytes.length then .error
  else deserialize dstarray dstarrayPosition (array.bytesAt position length) length

/-- An empty array with the given capacity. -/
def empty (capacity : UInt32) : DynamicArray :=
  ⟨[], capacity.toNat, Nat.zero_le _, capacity.toNat_lt⟩

end Checked32

end DynamicArray

/-- The size of a key at a position of a payload. -/
def Key.keysizeAt (payload : DynamicArray) (position : UInt32) : UInt32 :=
  .ofNat (ofBigEndian ((payload.bytes.drop position.toNat).take 4))

open DynamicArray.Checked32 in
/-- The key at a position, and the bytes that it takes. -/
def Key.deserialize (payload : DynamicArray) (position : UInt32) : Access (Key × UInt32) :=
  (serialize payload position 4).bind fun bigendianKeysize =>
    let keysize := UInt32.ofNat (ofBigEndian bigendianKeysize)
    let size := position + 4
    (arraycpy payload size (empty keysize) 0 keysize).map fun keybytes =>
      (⟨keybytes.bytes⟩, size + keysize - position)

/-! ## Where the accessors are sound -/

namespace DynamicArray

variable {array array' dstarray : DynamicArray} {position length : UInt32} {data : List UInt8}

theorem length_resized (bytes : List UInt8) (size : Nat) :
    (resized bytes size).length = max bytes.length size := by
  rw [resized, List.length_append, List.length_replicate]
  omega

/-- The capacity is kept, and so are the bytes outside the range. -/
def Unchanged (array array' : DynamicArray) (position length : UInt32) : Prop :=
  array'.capacity = array.capacity ∧ ∀ j < array.bytes.length,
    (j < position.toNat ∨ position.toNat + length.toNat ≤ j) → array'.bytes[j]? = array.bytes[j]?

/-- A write changes the bytes of the range only. -/
theorem unchanged_of_write (hdata : data.length ≤ length.toNat)
    (h : array.write position length (.done data) = .done array') :
    array.Unchanged array' position length := by
  simp only [write, Access.bind_done] at h
  split at h
  · cases h
  · split at h
    · cases h
      refine ⟨rfl, fun j hj hout => ?_⟩
      have hresized : j < (resized array.bytes (position + length).toNat).length := by
        rw [length_resized]
        omega
      dsimp only
      rw [List.getElem?_take_of_lt hresized,
        getElem?_overwritten_of_not_mem hresized (by omega), resized,
        List.getElem?_append_left hj]
    · cases h

/-- A write is sound iff the sum does not wrap around, or the check fails, or the data is empty or
short enough. -/
theorem write_sound_iff (hdata : data.length ≤ length.toNat) :
    (array.write position length (.done data)).Sound (array.Unchanged · position length) ↔
      InRange position length array.capacity ∨ data = [] ∨
        position.toNat + data.length ≤ array.capacity := by
  rw [Access.sound_iff_of_forall fun array' => unchanged_of_write hdata]
  simp only [write, Access.bind_done]
  split
  · next hcapacity => exact iff_of_true trivial (.inl (.inr hcapacity))
  · next hcapacity =>
    split
    · next hwithin => exact iff_of_true trivial (.inr hwithin)
    · next hwithin =>
      refine iff_of_false id ?_
      rintro ((hlt | hlt) | hor)
      · rw [toNat_add_of_lt hlt] at hcapacity
        exact hwithin (.inr (by omega))
      · omega
      · exact hwithin hor

/-- A range whose sum wraps around is not within a limit of 32 bits. -/
theorem inRange_of_le {limit : Nat} (hlimit : limit < 2 ^ 32)
    (h : position.toNat + length.toNat ≤ limit) : InRange position length limit :=
  .inl (by omega)

/-- Data that fills the range is never short enough if the sum wraps around. -/
theorem write_sound_iff_of_length (hdata : data.length = length.toNat) :
    (array.write position length (.done data)).Sound (array.Unchanged · position length) ↔
      InRange position length array.capacity := by
  rw [write_sound_iff hdata.le]
  refine or_iff_left_of_imp ?_
  rintro (rfl | hle)
  · -- a range of length zero
    exact .inl (by rw [← hdata]; exact position.toNat_lt)
  · exact inRange_of_le array.capacity_lt (hdata ▸ hle)

theorem bytesAt_of_le (h : position.toNat + length.toNat ≤ array.bytes.length) :
    array.bytesAt position length =
      .done ((array.bytes.drop position.toNat).take length.toNat) := if_pos h

theorem length_of_bytesAt (h : array.bytesAt position length = .done data) :
    data.length = length.toNat := by
  rw [bytesAt] at h
  split at h
  · next hwithin =>
    cases h
    rw [List.length_take, List.length_drop]
    omega
  · cases h

/-- The bytes are there iff the sum is right, unless it is above the size. -/
theorem bytesAt_sound_iff (hsize : ¬ (position + length).toNat > array.bytes.length) :
    (array.bytesAt position length).Sound (fun _ => True) ↔
      InRange position length array.bytes.length := by
  have hfits := array.fits
  have hlimit := array.capacity_lt
  rw [bytesAt]
  split
  · next hwithin => exact iff_of_true trivial (inRange_of_le (by omega) hwithin)
  · next hwithin =>
    refine iff_of_false id ?_
    rintro (hlt | hlt)
    · rw [toNat_add_of_lt hlt] at hsize
      omega
    · omega

theorem length_of_read (h : array.read position length = .done data) :
    data.length = length.toNat := by
  rw [read] at h
  split at h
  · cases h
  · exact length_of_bytesAt h

theorem read_sound_iff : (array.read position length).Sound (fun data => data.length = length.toNat)
    ↔ InRange position length array.bytes.length := by
  rw [Access.sound_iff_of_forall fun _ => length_of_read, read]
  split
  · next hsize => exact iff_of_true trivial (.inr hsize)
  · next hsize => exact bytesAt_sound_iff hsize

/-- A read without an error, and what it reads. -/
theorem read_eq_done (h : array.read position length = .done data) :
    position.toNat + length.toNat ≤ array.bytes.length ∧
      data = (array.bytes.drop position.toNat).take length.toNat := by
  rw [read, bytesAt] at h
  split at h
  · cases h
  · split at h
    · next hwithin =>
      cases h
      exact ⟨hwithin, rfl⟩
    · cases h

/-- A read that is not refused and whose sum is right. -/
theorem read_of_inRange (hsize : (position + length).toNat ≤ array.bytes.length)
    (hrange : InRange position length array.bytes.length) :
    array.read position length = .done ((array.bytes.drop position.toNat).take length.toNat) := by
  rcases hrange with hlt | hlt
  · rw [read, if_neg (by omega)]
    rw [toNat_add_of_lt hlt] at hsize
    exact bytesAt_of_le hsize
  · omega

/-! ## Copies between arrays -/

/-- What is copied between arrays has the length that was asked for. -/
theorem unchanged_of_arraycpy {dstarrayPosition : UInt32}
    (h : Checked32.arraycpy array position dstarray dstarrayPosition length = .done array') :
    dstarray.Unchanged array' dstarrayPosition length := by
  rw [Checked32.arraycpy, Checked32.deserialize] at h
  split at h
  · cases h
  · cases hcopy : array.bytesAt position length with
    | error =>
      rw [hcopy, write] at h
      split at h <;> cases h
    | outOfBounds =>
      rw [hcopy, write] at h
      split at h <;> cases h
    | done data =>
      rw [hcopy] at h
      exact unchanged_of_write (length_of_bytesAt hcopy).le h

/-- Nothing is copied if one of the arrays refuses; else both sums must be right. -/
theorem arraycpy_sound_iff {dstarrayPosition : UInt32} :
    (Checked32.arraycpy array position dstarray dstarrayPosition length).Sound
        (dstarray.Unchanged · dstarrayPosition length) ↔
      (position + length).toNat > array.bytes.length ∨
        (dstarrayPosition + length).toNat > dstarray.capacity ∨
        (InRange position length array.bytes.length ∧
          InRange dstarrayPosition length dstarray.capacity) := by
  rw [Checked32.arraycpy]
  by_cases hsize : (position + length).toNat > array.bytes.length
  · rw [if_pos hsize]
    exact iff_of_true trivial (.inl hsize)
  rw [if_neg hsize, or_iff_right hsize, Checked32.deserialize]
  by_cases hcapacity : (dstarrayPosition + length).toNat > dstarray.capacity
  · rw [write, dif_pos hcapacity]
    exact iff_of_true trivial (.inl hcapacity)
  rw [or_iff_right hcapacity, ← bytesAt_sound_iff hsize]
  cases hcopy : array.bytesAt position length with
  | error =>
    rw [bytesAt] at hcopy
    split at hcopy <;> cases hcopy
  | outOfBounds =>
    rw [write, dif_neg hcapacity]
    exact iff_of_false id And.left
  | done data =>
    rw [write_sound_iff_of_length (length_of_bytesAt hcopy)]
    exact (and_iff_right trivial).symm

end DynamicArray

theorem Key.deserialize_sound_iff {payload : DynamicArray} {position : UInt32} :
    (Key.deserialize payload position).Sound (fun _ => True) ↔
      InRange position 4 payload.bytes.length ∧
        ((position + 4).toNat ≤ payload.bytes.length →
          InRange (position + 4) (Key.keysizeAt payload position) payload.bytes.length) := by
  have hread : (payload.read position 4).Sound (fun data => data.length = (4 : UInt32).toNat) ↔
      InRange position 4 payload.bytes.length := DynamicArray.read_sound_iff
  rw [Key.deserialize, Access.sound_bind, DynamicArray.Checked32.serialize]
  cases hcopy : payload.read position 4 with
  | error =>
    rw [hcopy] at hread
    have hrange := hread.1 trivial
    refine iff_of_true trivial ⟨hrange, fun hsize => ?_⟩
    rw [DynamicArray.read_of_inRange hsize hrange] at hcopy
    cases hcopy
  | outOfBounds =>
    rw [hcopy] at hread
    exact iff_of_false id fun h => hread.2 h.1
  | done data =>
    obtain ⟨hwithin, rfl⟩ := DynamicArray.read_eq_done hcopy
    have hfour : (4 : UInt32).toNat = 4 := rfl
    rw [hfour] at hwithin
    have hlimit := payload.capacity_lt
    have hfits := payload.fits
    have hrange : InRange position 4 payload.bytes.length := .inl (by rw [hfour]; omega)
    have hsize : (position + 4).toNat ≤ payload.bytes.length := by
      rw [toNat_add_of_lt (by rw [hfour]; omega), hfour]
      exact hwithin
    have hkey : Key.keysizeAt payload position =
        UInt32.ofNat (ofBigEndian ((payload.bytes.drop position.toNat).take
          (4 : UInt32).toNat)) := rfl
    rw [Access.Sound, Access.sound_map, hkey,
      ← Access.sound_iff_of_forall fun _ => DynamicArray.unchanged_of_arraycpy,
      DynamicArray.arraycpy_sound_iff]
    generalize UInt32.ofNat (ofBigEndian _) = keysize
    -- the array for the characters of the key has room for them
    have hroom : InRange 0 keysize (DynamicArray.Checked32.empty keysize).capacity :=
      .inl (by rw [UInt32.toNat_zero, Nat.zero_add]; exact keysize.toNat_lt)
    have haccepts : ¬ (0 + keysize).toNat > (DynamicArray.Checked32.empty keysize).capacity := by
      rw [UInt32.zero_add]
      exact Nat.lt_irrefl _
    rw [or_iff_right haccepts, and_iff_left hroom, or_iff_right_of_imp .inr]
    exact ⟨fun h => ⟨hrange, fun _ => h⟩, fun h => h.2 hsize⟩

/-! ## All accessors -/

open DynamicArray.Checked32 in
/-- Each accessor takes the error branch, or copies within the bytes and leaves the others as they
are, iff the sum of its position and length does not wrap around or is refused nevertheless. Between
arrays one that refuses is enough. A file with few bytes left, or none, saves a read if these fit. A
key is read within the bytes iff the four bytes of its size and the bytes of its characters are. -/
theorem accessors_sound_iff (array : DynamicArray) (position length : UInt32) :
    (∀ data : Vector UInt8 length.toNat,
      (deserialize array position (.done data.toList) length).Sound
        (array.Unchanged · position length) ↔ InRange position length array.capacity) ∧
    (∀ charval, (arrayset array position charval length).Sound
        (array.Unchanged · position length) ↔ InRange position length array.capacity) ∧
    ((serialize array position length).Sound (fun data => data.length = length.toNat) ↔
      InRange position length array.bytes.length) ∧
    (∀ dstarray dstarrayPosition, (arraycpy array position dstarray dstarrayPosition length).Sound
        (dstarray.Unchanged · dstarrayPosition length) ↔
      (position + length).toNat > array.bytes.length ∨
        (dstarrayPosition + length).toNat > dstarray.capacity ∨
        (InRange position length array.bytes.length ∧
          InRange dstarrayPosition length dstarray.capacity)) ∧
    (∀ file, (writeBinaryFile array position file length).Sound
        (fun file' => file'.length = file.length + length.toNat) ↔
      InRange position length array.bytes.length) ∧
    (∀ file, (readBinaryFile array position file length).Sound
        (array.Unchanged · position length) ↔ InRange position length array.capacity ∨
          file = [] ∨ position.toNat + min length.toNat file.length ≤ array.capacity) ∧
    ((Key.deserialize array position).Sound (fun _ => True) ↔
      InRange position 4 array.bytes.length ∧
        ((position + 4).toNat ≤ array.bytes.length →
          InRange (position + 4) (Key.keysizeAt array position) array.bytes.length)) := by
  refine ⟨fun data => ?_, fun charval => ?_, DynamicArray.read_sound_iff,
    fun _ _ => DynamicArray.arraycpy_sound_iff, fun file => ?_, fun file => ?_,
    Key.deserialize_sound_iff⟩
  · exact DynamicArray.write_sound_iff_of_length (by rw [Vector.length_toList])
  · exact DynamicArray.write_sound_iff_of_length (List.length_replicate ..)
  · rw [writeBinaryFile, Access.sound_map, ← DynamicArray.read_sound_iff]
    simp only [List.length_append, Nat.add_left_cancel_iff]
  · rw [readBinaryFile, DynamicArray.write_sound_iff (List.length_take_le _ _), List.length_take]
    refine or_congr_right' fun hwraps => or_congr_left' fun _ => ?_
    rw [List.take_eq_nil_iff, or_iff_right]
    -- a range of length zero does not wrap around
    intro hzero
    exact hwraps (.inl (by rw [hzero]; exact position.toNat_lt))

/-- Four bytes with the size of a key that makes the sum wrap around to zero. -/
def wrappingPayload : DynamicArray := ⟨[255, 255, 255, 252], 4, by decide, by decide⟩

/-- The characters of the key are read behind the four bytes, and a copy of one byte at the largest
position is one outside as well. -/
theorem reads_outside : Key.deserialize wrappingPayload 0 = .outOfBounds ∧
    DynamicArray.Checked32.serialize wrappingPayload 4294967295 1 = .outOfBounds ∧
    DynamicArray.Checked32.deserialize wrappingPayload 4294967295 (.done [7]) 1 = .outOfBounds := by
  refine ⟨?_, rfl, rfl⟩
  rfl

end Covered.Common
