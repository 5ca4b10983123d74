import Covered.Lib.ByteStream

/-!
# Message payloads and files

A message payload is a `DynamicArray`: bytes and a capacity that is reserved beforehand. Bytes are
copied into it at a position, which may overwrite bytes and may append some up to the capacity, and
are copied out of it; a copy out of range ends the process. The serializers of the source come in
two variants, for a payload and for a file. The two are sinks and sources of bytes here, so that a
traversal is written once.

The position of a payload is the counter `size` of the source; a file variant counts in `size` the
bytes that it writes or reads. A file that ends early sets a flag that no reader checks: what is
read then is left out, and reading fails here.
-/

set_option autoImplicit false

namespace Covered.Common

open Lib.ByteStream Option List

/-- Bytes with a reserved capacity, which is a 32-bit number. -/
structure DynamicArray where
  bytes : List UInt8
  capacity : Nat
  fits : bytes.length ≤ capacity
  capacity_lt : capacity < 2 ^ 32

namespace DynamicArray

/-- The bytes with zeros up to the given size, if it is larger. -/
def resized (bytes : List UInt8) (size : Nat) : List UInt8 :=
  bytes ++ List.replicate (size - bytes.length) 0

/-- The bytes with `data` at the given position. -/
def overwritten (bytes : List UInt8) (position : Nat) (data : List UInt8) : List UInt8 :=
  let padded := resized bytes (position + data.length)
  padded.take position ++ data ++ padded.drop (position + data.length)

variable {bytes : List UInt8} {position : Nat}

theorem overwritten_eq (h : position ≤ bytes.length) (data : List UInt8) :
    overwritten bytes position data =
      bytes.take position ++ data ++ bytes.drop (position + data.length) := by
  rw [overwritten, resized, take_append_of_le_length h, drop_append]
  congr 1
  -- the zeros are overwritten
  have hnone : (replicate (position + data.length - bytes.length) (0 : UInt8)).drop
      (position + data.length - bytes.length) = [] :=
    drop_eq_nil_of_le (length_replicate ..).le
  rw [hnone, append_nil]

theorem length_overwritten (bytes : List UInt8) (position : Nat) (data : List UInt8) :
    (overwritten bytes position data).length = max bytes.length (position + data.length) := by
  simp only [overwritten, resized, length_append, length_take, length_drop,
    length_replicate]
  omega

variable {data : List UInt8}

/-- The new bytes are at their position. -/
theorem getElem?_overwritten_of_mem {j : Nat} (hlow : position ≤ j)
    (hhigh : j < position + data.length) :
    (overwritten bytes position data)[j]? = data[j - position]? := by
  have hresized : position ≤ (resized bytes (position + data.length)).length := by
    rw [resized, length_append, length_replicate]
    omega
  have htake := length_take_of_le hresized
  rw [overwritten, append_assoc, getElem?_append_right (by omega), htake,
    getElem?_append_left (by omega)]

/-- The other bytes are as they were. -/
theorem getElem?_overwritten_of_not_mem {j : Nat} (hj : j < bytes.length)
    (hout : j < position ∨ position + data.length ≤ j) :
    (overwritten bytes position data)[j]? = bytes[j]? := by
  have hresized : position ≤ (resized bytes (position + data.length)).length := by
    rw [resized, length_append, length_replicate]
    omega
  have htake := length_take_of_le hresized
  rw [overwritten, append_assoc]
  rcases hout with hbefore | hafter
  · rw [getElem?_append_left (by omega), getElem?_take_of_lt hbefore, resized,
      getElem?_append_left hj]
  · rw [getElem?_append_right (by omega), htake, getElem?_append_right (by omega),
      getElem?_drop, resized, getElem?_append_left (by omega)]
    congr 1
    omega

/-- Copy data into the array. -/
def deserialize (array : DynamicArray) (position : Nat) (data : List UInt8) :
    Option DynamicArray :=
  if h : position + data.length ≤ array.capacity then
    some { array with
      bytes := overwritten array.bytes position data
      fits := by
        rw [length_overwritten]
        exact max_le array.fits h }
  else none

/-- Copy data out of the array. -/
def serialize (array : DynamicArray) (position length : Nat) : Option (List UInt8) :=
  if position + length ≤ array.bytes.length then some ((array.bytes.drop position).take length)
  else none

/-- Copy a part of the array into another one. -/
def arraycpy (array : DynamicArray) (position : Nat) (dstarray : DynamicArray)
    (dstarrayPosition length : Nat) : Option DynamicArray := do
  let data ← array.serialize position length
  dstarray.deserialize dstarrayPosition data

variable {array : DynamicArray}

theorem deserialize_eq_some (hfits : position + data.length ≤ array.capacity) :
    ∃ array', array.deserialize position data = some array' ∧
      array'.bytes = overwritten array.bytes position data ∧
      array'.capacity = array.capacity :=
  ⟨_, dif_pos hfits, rfl, rfl⟩

/-- A part of the array that lies within it is copied. -/
theorem arraycpy_eq {dstarray : DynamicArray} {dstarrayPosition length : Nat}
    (hwithin : position + length ≤ array.bytes.length) :
    array.arraycpy position dstarray dstarrayPosition length =
      dstarray.deserialize dstarrayPosition ((array.bytes.drop position).take length) := by
  simp only [arraycpy, serialize, if_pos hwithin, bind_eq_bind, bind_some]

theorem deserialize_eq (hposition : position ≤ array.bytes.length)
    (hfits : position + data.length ≤ array.capacity) :
    ∃ array', array.deserialize position data = some array' ∧
      array'.bytes =
        array.bytes.take position ++ data ++ array.bytes.drop (position + data.length) ∧
      array'.capacity = array.capacity := by
  obtain ⟨array', harray', hbytes, hcapacity⟩ := deserialize_eq_some hfits
  exact ⟨array', harray', hbytes.trans (overwritten_eq hposition data), hcapacity⟩

/-- An empty array; a capacity is a 32-bit number. -/
def ofCapacity (capacity : Nat) : Option DynamicArray :=
  if h : capacity < 2 ^ 32 then
    some { bytes := [], capacity := capacity, fits := Nat.zero_le _, capacity_lt := h }
  else none

theorem ofCapacity_eq {capacity : Nat} (h : capacity < 2 ^ 32) :
    ofCapacity capacity = some ⟨[], capacity, Nat.zero_le _, h⟩ :=
  dif_pos h

/-! ## Payloads as sinks and sources -/

/-- Write to a payload at the position `size`. What is left of the capacity is counted exactly, so
that the capacity is seen to stay. -/
def sink : Sink (DynamicArray × Nat) where
  put data := fun (array, size) => do
    let array' ← array.deserialize size data
    return ((), (array', size + data.length))
  written s := s.1.bytes.take s.2
  size s := s.2
  Fits s n := s.2 ≤ s.1.bytes.length ∧ s.2 + n = s.1.capacity
  put_fits := by
    rintro ⟨array, size⟩ data n ⟨hsize, hcapacity⟩
    dsimp only at hsize hcapacity
    have hfits : size + data.length ≤ array.capacity :=
      (Nat.le_add_right _ n).trans (Nat.add_assoc .. ▸ Nat.le_of_eq hcapacity)
    obtain ⟨array', harray', hbytes, hcapacity'⟩ := deserialize_eq hsize hfits
    have hlength : (array.bytes.take size ++ data).length = size + data.length := by
      rw [List.length_append, List.length_take_of_le hsize]
    refine ⟨(array', size + data.length), ?_, ?_, rfl, ?_, ?_⟩
    · simp only [harray', Option.bind_eq_bind, Option.bind_some, Option.pure_def]
    · dsimp only
      rw [hbytes, ← hlength, List.take_left]
    · dsimp only
      rw [hbytes, List.length_append, hlength]
      exact Nat.le_add_right ..
    · dsimp only
      rw [hcapacity', Nat.add_assoc]
      exact hcapacity

/-- The same sink for a payload that is written at its end: nothing is left after what is
written. -/
def sinkAtEnd : Sink (DynamicArray × Nat) where
  put := sink.put
  written s := s.1.bytes
  size s := s.2
  Fits s n := s.2 = s.1.bytes.length ∧ s.2 + n ≤ s.1.capacity
  put_fits := by
    rintro ⟨array, size⟩ data n ⟨hend, hcapacity⟩
    dsimp only at hend hcapacity
    subst hend
    have hfits : array.bytes.length + data.length ≤ array.capacity := by omega
    obtain ⟨array', harray', hbytes, hcapacity'⟩ := deserialize_eq (Nat.le_refl _) hfits
    rw [List.take_length, List.drop_eq_nil_of_le (Nat.le_add_right ..), List.append_nil] at hbytes
    refine ⟨(array', array.bytes.length + data.length), ?_, hbytes, rfl, ?_, ?_⟩
    · simp only [sink, harray', Option.bind_eq_bind, Option.bind_some, Option.pure_def]
    · dsimp only
      rw [hbytes, List.length_append]
    · dsimp only
      rw [hcapacity', Nat.add_assoc]
      exact hcapacity

/-- A position in a payload. -/
structure Reader where
  array : DynamicArray
  size : Nat
  within : size ≤ array.bytes.length

/-- Read from a payload. -/
def source : Source Reader where
  get length := fun s =>
    if h : s.size + length ≤ s.array.bytes.length then
      (s.array.serialize s.size length).map fun data =>
        (data, { s with size := s.size + length, within := h })
    else none
  remaining s := s.array.bytes.drop s.size
  size s := s.size
  get_remaining := by
    intro s n hle
    have hfits : s.size + n ≤ s.array.bytes.length := by
      have hwithin := s.within
      rw [List.length_drop] at hle
      omega
    refine ⟨{ s with size := s.size + n, within := hfits }, ?_, List.drop_drop.symm, rfl⟩
    rw [dif_pos hfits, serialize, if_pos hfits, Option.map_some]

end DynamicArray

/-! ## Files -/

namespace File

/-- Append to a file; the state has the bytes of the file and the size of what was written. -/
def sink : Sink (List UInt8 × Nat) where
  put data := fun (file, size) => some ((), (file ++ data, size + data.length))
  written s := s.1
  size s := s.2
  Fits _ _ := True
  put_fits _ := ⟨_, rfl, rfl, rfl, trivial⟩

/-- Read from a file; the state has the bytes that are left and the size of what was read. -/
def source : Source (List UInt8 × Nat) where
  get length := fun (rest, size) =>
    if length ≤ rest.length then
      some (rest.take length, (rest.drop length, size + length))
    else none
  remaining s := s.1
  size s := s.2
  get_remaining := by
    rintro ⟨rest, size⟩ n hle
    exact ⟨_, if_pos hle, rfl, rfl⟩

end File

end Covered.Common
