import Covered.Network.Fragmentation

/-!
# The fragments of a message tile it

The functions that split a message into fragments, on the 32-bit numbers of the source. Count,
offset and payload size are three formulas. The payload size of a fragment is what is left of the
message after its offset, but at most the maximum (`toNat_getFragmentPayloadSize`), so the fragments
follow each other without a gap or an overlap. `fragments_tile` says this for every message size,
and that each operation on 32-bit numbers has the exact result (`ExactArithmetic`).
-/

set_option autoImplicit false

namespace Covered.Network.Util

open Lib.Checked

def udpMaxPktPayload : UInt32 := 65507

def udpFraghdrSize : UInt32 := 5 * 4 + 2

def udpMaxFragPayload : UInt32 := udpMaxPktPayload - udpFraghdrSize

def getFragmentCnt (msgPayloadSize : UInt32) : UInt32 :=
  if msgPayloadSize = 0 then 1 else (msgPayloadSize - 1) / udpMaxFragPayload + 1

def getFragmentOffset (fragmentIdx : UInt32) : UInt32 := fragmentIdx * udpMaxFragPayload

def getFragmentPayloadSize (fragmentIdx msgPayloadSize : UInt32) : Option UInt32 := do
  let fragmentCnt := getFragmentCnt msgPayloadSize
  let fragmentPayloadSize :=
    if fragmentIdx = fragmentCnt - 1 then msgPayloadSize - (fragmentCnt - 1) * udpMaxFragPayload
    else udpMaxFragPayload
  require (fragmentPayloadSize ≤ udpMaxFragPayload)
  return fragmentPayloadSize

/-- The operations of the three functions have the results that they have on numbers without a
limit. -/
structure ExactArithmetic (fragmentIdx msgPayloadSize : UInt32) : Prop where
  count : (getFragmentCnt msgPayloadSize).toNat = Network.getFragmentCnt msgPayloadSize.toNat
  quotient : msgPayloadSize ≠ 0 → 1 ≤ msgPayloadSize.toNat ∧
    (msgPayloadSize.toNat - 1) / udpMaxFragPayload.toNat + 1 < 2 ^ 32
  offset : fragmentIdx.toNat * udpMaxFragPayload.toNat < 2 ^ 32
  last : 1 ≤ (getFragmentCnt msgPayloadSize).toNat
  full : ((getFragmentCnt msgPayloadSize).toNat - 1) * udpMaxFragPayload.toNat < 2 ^ 32
  rest : ((getFragmentCnt msgPayloadSize).toNat - 1) * udpMaxFragPayload.toNat ≤
    msgPayloadSize.toNat

section Tiling

variable {fragmentIdx msgPayloadSize : UInt32}

theorem toNat_udpMaxFragPayload : udpMaxFragPayload.toNat = 65485 := by decide

theorem toNat_getFragmentCnt (msgPayloadSize : UInt32) :
    (getFragmentCnt msgPayloadSize).toNat = Network.getFragmentCnt msgPayloadSize.toNat := by
  have hlimit := msgPayloadSize.toNat_lt
  have hiff : msgPayloadSize = 0 ↔ msgPayloadSize.toNat = 0 := by
    rw [← UInt32.toNat_inj, UInt32.toNat_zero]
  rw [getFragmentCnt, Network.getFragmentCnt]
  by_cases hzero : msgPayloadSize = 0
  · rw [if_pos hzero, if_pos (hiff.1 hzero)]
    rfl
  · have hpos := mt hiff.2 hzero
    have hone : (1 : UInt32) ≤ msgPayloadSize := by
      rw [UInt32.le_iff_toNat_le, UInt32.toNat_one]
      omega
    rw [if_neg hzero, if_neg hpos, UInt32.toNat_add, UInt32.toNat_div,
      UInt32.toNat_sub_of_le _ _ hone, UInt32.toNat_one, toNat_udpMaxFragPayload]
    have hmax : Network.udpMaxFragPayload = 65485 := rfl
    rw [hmax]
    omega

/-- The full fragments leave between zero and the maximum of bytes for the last one. -/
theorem toNat_getFragmentCnt_bounds (msgPayloadSize : UInt32) :
    1 ≤ (getFragmentCnt msgPayloadSize).toNat ∧
      ((getFragmentCnt msgPayloadSize).toNat - 1) * 65485 ≤ msgPayloadSize.toNat ∧
      msgPayloadSize.toNat ≤ ((getFragmentCnt msgPayloadSize).toNat - 1) * 65485 + 65485 := by
  rw [toNat_getFragmentCnt]
  exact ⟨Network.getFragmentCnt_pos _, Network.getFragmentCnt_bounds _⟩

theorem exactArithmetic (h : fragmentIdx < getFragmentCnt msgPayloadSize) :
    ExactArithmetic fragmentIdx msgPayloadSize := by
  obtain ⟨hpos, hlow, -⟩ := toNat_getFragmentCnt_bounds msgPayloadSize
  have hlimit := msgPayloadSize.toNat_lt
  have hidx := UInt32.lt_iff_toNat_lt.1 h
  have hcount := toNat_getFragmentCnt msgPayloadSize
  constructor
  · exact hcount
  · intro hne
    have hzero : msgPayloadSize.toNat ≠ 0 := fun heq => hne (UInt32.toNat_inj.1 heq)
    rw [toNat_udpMaxFragPayload]
    omega
  · rw [toNat_udpMaxFragPayload]
    omega
  · exact hpos
  · rw [toNat_udpMaxFragPayload]
    omega
  · rw [toNat_udpMaxFragPayload]
    exact hlow

theorem toNat_getFragmentOffset (h : fragmentIdx < getFragmentCnt msgPayloadSize) :
    (getFragmentOffset fragmentIdx).toNat = fragmentIdx.toNat * 65485 := by
  have hoffset := (exactArithmetic h).offset
  rw [getFragmentOffset, UInt32.toNat_mul, Nat.mod_eq_of_lt hoffset, toNat_udpMaxFragPayload]

/-- A fragment has what is left of the message after its offset, but at most the maximum. -/
theorem toNat_getFragmentPayloadSize (h : fragmentIdx < getFragmentCnt msgPayloadSize) :
    ∃ size, getFragmentPayloadSize fragmentIdx msgPayloadSize = some size ∧
      size.toNat = min (msgPayloadSize.toNat - fragmentIdx.toNat * 65485) 65485 := by
  obtain ⟨hpos, hlow, hhigh⟩ := toNat_getFragmentCnt_bounds msgPayloadSize
  have hexact := exactArithmetic h
  have hidx := UInt32.lt_iff_toNat_lt.1 h
  have hone : (1 : UInt32) ≤ getFragmentCnt msgPayloadSize := UInt32.le_iff_toNat_le.2 hpos
  have hlast : (getFragmentCnt msgPayloadSize - 1).toNat =
      (getFragmentCnt msgPayloadSize).toNat - 1 := UInt32.toNat_sub_of_le _ _ hone
  have hfull : ((getFragmentCnt msgPayloadSize - 1) * udpMaxFragPayload).toNat =
      ((getFragmentCnt msgPayloadSize).toNat - 1) * 65485 := by
    rw [UInt32.toNat_mul, hlast, Nat.mod_eq_of_lt hexact.full, toNat_udpMaxFragPayload]
  have hiff : fragmentIdx = getFragmentCnt msgPayloadSize - 1 ↔
      fragmentIdx.toNat = (getFragmentCnt msgPayloadSize).toNat - 1 := by
    rw [← UInt32.toNat_inj, hlast]
  simp only [getFragmentPayloadSize, Option.pure_def]
  by_cases hidx' : fragmentIdx = getFragmentCnt msgPayloadSize - 1
  · -- the last fragment has what is left
    rw [if_pos hidx']
    have hrest : (msgPayloadSize - (getFragmentCnt msgPayloadSize - 1) * udpMaxFragPayload).toNat =
        msgPayloadSize.toNat - ((getFragmentCnt msgPayloadSize).toNat - 1) * 65485 := by
      rw [UInt32.toNat_sub_of_le, hfull]
      rw [UInt32.le_iff_toNat_le, hfull]
      exact hlow
    refine ⟨_, require_bind_of ?_ _, ?_⟩
    · rw [UInt32.le_iff_toNat_le, hrest, toNat_udpMaxFragPayload]
      omega
    · rw [hrest, hiff.1 hidx']
      omega
  · -- a fragment before the last one is full
    have hlt : fragmentIdx.toNat + 1 ≤ (getFragmentCnt msgPayloadSize).toNat - 1 := by
      have hne := mt hiff.2 hidx'
      omega
    rw [if_neg hidx']
    refine ⟨_, require_bind_of (UInt32.le_refl _) _, ?_⟩
    rw [toNat_udpMaxFragPayload]
    omega

end Tiling

/-- The bytes of a fragment. -/
def Holds (msgPayloadSize fragmentIdx : UInt32) (byte : Nat) : Prop :=
  ∃ size, getFragmentPayloadSize fragmentIdx msgPayloadSize = some size ∧
    (getFragmentOffset fragmentIdx).toNat ≤ byte ∧
    byte < (getFragmentOffset fragmentIdx).toNat + size.toNat

/-- For every message size, the fragments lie one after the other from the first byte of the message
to the last one, so every byte is in exactly one of them. A fragment has at most the maximum of
bytes and is empty only for the empty message, and no computation wraps around. -/
theorem fragments_tile (msgPayloadSize : UInt32) :
    0 < getFragmentCnt msgPayloadSize ∧ (getFragmentOffset 0).toNat = 0 ∧
      (∀ fragmentIdx < getFragmentCnt msgPayloadSize,
        ExactArithmetic fragmentIdx msgPayloadSize ∧
        ∃ size, getFragmentPayloadSize fragmentIdx msgPayloadSize = some size ∧
          size ≤ udpMaxFragPayload ∧ (0 < msgPayloadSize → 0 < size) ∧
          (getFragmentOffset fragmentIdx).toNat + size.toNat =
            if fragmentIdx + 1 < getFragmentCnt msgPayloadSize then
              (getFragmentOffset (fragmentIdx + 1)).toNat
            else msgPayloadSize.toNat) ∧
      ∀ byte < msgPayloadSize.toNat,
        ∃! fragmentIdx, fragmentIdx < getFragmentCnt msgPayloadSize ∧
          Holds msgPayloadSize fragmentIdx byte := by
  obtain ⟨hpos, hlow, hhigh⟩ := toNat_getFragmentCnt_bounds msgPayloadSize
  refine ⟨UInt32.lt_iff_toNat_lt.2 hpos, rfl, fun fragmentIdx h => ⟨exactArithmetic h, ?_⟩,
    fun byte hbyte => ?_⟩
  · obtain ⟨size, hsize, hbytes⟩ := toNat_getFragmentPayloadSize h
    have hidx := UInt32.lt_iff_toNat_lt.1 h
    have hnext : (fragmentIdx + 1).toNat = fragmentIdx.toNat + 1 := by
      have hlimit := (getFragmentCnt msgPayloadSize).toNat_lt
      rw [UInt32.toNat_add, UInt32.toNat_one]
      omega
    refine ⟨size, hsize, ?_, fun hnonempty => ?_, ?_⟩
    · rw [UInt32.le_iff_toNat_le, toNat_udpMaxFragPayload]
      omega
    · have hmessage : 0 < msgPayloadSize.toNat := UInt32.lt_iff_toNat_lt.1 hnonempty
      have hcnt := toNat_getFragmentCnt msgPayloadSize
      refine UInt32.lt_iff_toNat_lt.2 ?_
      rw [UInt32.toNat_zero]
      rw [Network.getFragmentCnt, if_neg (Nat.pos_iff_ne_zero.1 hmessage)] at hcnt
      have hmax : Network.udpMaxFragPayload = 65485 := rfl
      rw [hmax] at hcnt
      omega
    · rw [toNat_getFragmentOffset h, hbytes]
      split
      · next hlt =>
        have hlt' := UInt32.lt_iff_toNat_lt.1 hlt
        rw [toNat_getFragmentOffset hlt, hnext]
        omega
      · next hge =>
        have hge' := mt UInt32.lt_iff_toNat_lt.2 hge
        omega
  · -- a byte is in the fragment that its position divided by the maximum gives
    have hdiv : byte / 65485 < 2 ^ 32 := by
      have hlimit := msgPayloadSize.toNat_lt
      omega
    have hidx : (UInt32.ofNat (byte / 65485)).toNat = byte / 65485 :=
      UInt32.toNat_ofNat_of_lt' hdiv
    have hmem : UInt32.ofNat (byte / 65485) < getFragmentCnt msgPayloadSize := by
      rw [UInt32.lt_iff_toNat_lt, hidx]
      omega
    refine ⟨UInt32.ofNat (byte / 65485), ⟨hmem, ?_⟩, ?_⟩
    · obtain ⟨size, hsize, hbytes⟩ := toNat_getFragmentPayloadSize hmem
      refine ⟨size, hsize, ?_⟩
      rw [toNat_getFragmentOffset hmem, hbytes, hidx]
      omega
    · rintro other ⟨hother, size, hsize, hfrom, hto⟩
      obtain ⟨size', hsize', hbytes⟩ := toNat_getFragmentPayloadSize hother
      rw [hsize', Option.some.injEq] at hsize
      subst hsize
      rw [toNat_getFragmentOffset hother] at hfrom hto
      refine UInt32.toNat_inj.1 ?_
      rw [hidx]
      omega

end Covered.Network.Util
