import Mathlib.Data.List.Sort
import Covered.Common.DynamicArray
import Covered.Common.Util

/-!
# Fragmentation and reassembly of messages

A UDP packet holds a fragment header and at most `udpMaxFragPayload` bytes of a message. A client
splits a message into as many fragments as are needed; a server keeps, for each source address, the
fragments of the newest message of several fragments of which it does not have all, and puts the
message together when the last fragment arrives.

`packet` is what a client sends for a fragment and `parses_packet` is what a server reads of it;
`reassemble_eq` is that copying all fragments to their offsets, in whatever order, gives the
message.
-/

set_option autoImplicit false

namespace Covered.Network

open Common Lib.ByteStream Lib.Checked

/-- Packet payload: fragment header and fragment payload. -/
def udpMaxPktPayload : Nat := 65507

/-- Bytes of a fragment header. -/
def udpFraghdrSize : Nat := 5 * 4 + 2

def udpMaxFragPayload : Nat := udpMaxPktPayload - udpFraghdrSize

/-- Ports up to this one are reserved. -/
def udpMinPort : Nat := 1024

theorem udpMaxFragPayload_pos : 0 < udpMaxFragPayload := by decide

/-! ## Fragments of a message -/

def getFragmentCnt (msgPayloadSize : Nat) : Nat :=
  if msgPayloadSize = 0 then 1 else (msgPayloadSize - 1) / udpMaxFragPayload + 1

def getFragmentOffset (fragmentIdx : Nat) : Nat := fragmentIdx * udpMaxFragPayload

def getFragmentPayloadSize (fragmentIdx msgPayloadSize : Nat) : Option Nat := do
  let fragmentCnt := getFragmentCnt msgPayloadSize
  let fragmentPayloadSize :=
    if fragmentIdx = fragmentCnt - 1 then msgPayloadSize - (fragmentCnt - 1) * udpMaxFragPayload
    else udpMaxFragPayload
  require (fragmentPayloadSize ≤ udpMaxFragPayload)
  return fragmentPayloadSize

section Fragments

variable {msgPayloadSize fragmentIdx : Nat}

theorem getFragmentCnt_pos (msgPayloadSize : Nat) : 0 < getFragmentCnt msgPayloadSize := by
  rw [getFragmentCnt]
  split
  · exact Nat.one_pos
  · exact Nat.succ_pos _

/-- The full fragments leave between zero and `udpMaxFragPayload` bytes for the last one. -/
theorem getFragmentCnt_bounds (msgPayloadSize : Nat) :
    (getFragmentCnt msgPayloadSize - 1) * udpMaxFragPayload ≤ msgPayloadSize ∧
      msgPayloadSize ≤ (getFragmentCnt msgPayloadSize - 1) * udpMaxFragPayload +
        udpMaxFragPayload := by
  rw [getFragmentCnt]
  split
  · next hzero =>
    subst hzero
    exact ⟨Nat.le_of_eq (Nat.zero_mul _), Nat.zero_le _⟩
  · have hdiv := Nat.div_add_mod (msgPayloadSize - 1) udpMaxFragPayload
    have hmod := Nat.mod_lt (msgPayloadSize - 1) udpMaxFragPayload_pos
    rw [Nat.add_sub_cancel, Nat.mul_comm]
    omega

/-- The fragment with the given index lies within the message. -/
theorem getFragmentPayloadSize_eq (h : fragmentIdx < getFragmentCnt msgPayloadSize) :
    ∃ size, getFragmentPayloadSize fragmentIdx msgPayloadSize = some size ∧
      size ≤ udpMaxFragPayload ∧ getFragmentOffset fragmentIdx + size ≤ msgPayloadSize ∧
      ∀ j < msgPayloadSize, j / udpMaxFragPayload = fragmentIdx →
        getFragmentOffset fragmentIdx ≤ j ∧ j < getFragmentOffset fragmentIdx + size := by
  obtain ⟨hlow, hhigh⟩ := getFragmentCnt_bounds msgPayloadSize
  have hspan : ∀ j, j / udpMaxFragPayload = fragmentIdx →
      getFragmentOffset fragmentIdx ≤ j ∧
        j < getFragmentOffset fragmentIdx + udpMaxFragPayload := by
    intro j hj
    have hdiv := Nat.div_add_mod j udpMaxFragPayload
    have hmod := Nat.mod_lt j udpMaxFragPayload_pos
    rw [hj, Nat.mul_comm] at hdiv
    rw [getFragmentOffset]
    omega
  simp only [getFragmentPayloadSize, Option.pure_def]
  by_cases hlast : fragmentIdx = getFragmentCnt msgPayloadSize - 1
  · -- the last fragment has what is left
    rw [if_pos hlast]
    have hsize : msgPayloadSize - (getFragmentCnt msgPayloadSize - 1) * udpMaxFragPayload ≤
        udpMaxFragPayload := by omega
    refine ⟨_, require_bind_of hsize _, hsize, ?_, fun j hj hidx => ?_⟩
    · rw [getFragmentOffset, hlast]
      omega
    · have hj' := hspan j hidx
      rw [getFragmentOffset, hlast] at hj' ⊢
      omega
  · -- a fragment before the last one is full
    rw [if_neg hlast]
    refine ⟨_, require_bind_of (Nat.le_refl _) _, Nat.le_refl _, ?_, fun j _ hidx => hspan j hidx⟩
    have hnext : (fragmentIdx + 1) * udpMaxFragPayload ≤
        (getFragmentCnt msgPayloadSize - 1) * udpMaxFragPayload :=
      Nat.mul_le_mul_right _ (by omega)
    rw [getFragmentOffset]
    rw [Nat.add_mul, Nat.one_mul] at hnext
    omega

/-- Every byte of a message is in one of its fragments. -/
theorem div_lt_getFragmentCnt {j : Nat} (h : j < msgPayloadSize) :
    j / udpMaxFragPayload < getFragmentCnt msgPayloadSize := by
  obtain ⟨-, hhigh⟩ := getFragmentCnt_bounds msgPayloadSize
  have hpos := getFragmentCnt_pos msgPayloadSize
  rw [Nat.div_lt_iff_lt_mul udpMaxFragPayload_pos]
  refine Nat.lt_of_lt_of_le h (Nat.le_trans hhigh ?_)
  rw [← Nat.succ_mul, Nat.succ_eq_add_one, Nat.sub_add_cancel hpos]

end Fragments

/-! ## Addresses -/

/-- The decimal digits of a byte. -/
def octet (byte : UInt8) : List UInt8 :=
  if byte < 10 then [48 + byte]
  else if byte < 100 then [48 + byte / 10, 48 + byte % 10]
  else [48 + byte / 100, 48 + byte / 10 % 10, 48 + byte % 10]

/-- The byte with the given decimal digits, without leading zeros. -/
def parseOctet (text : List UInt8) : Option UInt8 :=
  let value := text.foldl (fun n digit => 10 * n + (digit.toNat - 48)) 0
  if octet (UInt8.ofNat value) = text then some (UInt8.ofNat value) else none

/-- The dotted decimal text of an address. -/
def inetNtop (ipint : List UInt8) : List UInt8 := [46].intercalate (ipint.map octet)

/-- The bytes of an address in dotted decimal; the source goes on with undefined bytes after any
other text. -/
def inetPton (ipstr : List UInt8) : Option (List UInt8) := do
  let ipint ← (ipstr.splitOn 46).mapM parseOctet
  require (ipint.length = 4)
  return ipint

theorem octet_of_parseOctet {text : List UInt8} {byte : UInt8} (h : parseOctet text = some byte) :
    octet byte = text := by
  rw [parseOctet] at h
  split at h
  · next heq =>
    cases h
    exact heq
  · cases h

theorem map_octet_of_mapM {texts : List (List UInt8)} {bytes : List UInt8}
    (h : texts.mapM parseOctet = some bytes) : bytes.map octet = texts := by
  induction texts generalizing bytes with
  | nil =>
    cases h
    rfl
  | cons text rest ih =>
    simp only [List.mapM_cons, bind_eq_some_iff, pure_eq_some_iff] at h
    obtain ⟨byte, hbyte, others, hothers, rfl⟩ := h
    rw [List.map_cons, octet_of_parseOctet hbyte, ih hothers]

theorem inetNtop_of_inetPton {ipstr ipint : List UInt8} (h : inetPton ipstr = some ipint) :
    inetNtop ipint = ipstr ∧ ipint.length = 4 := by
  simp only [inetPton, bind_eq_some_iff, require_eq_some_iff, pure_eq_some_iff] at h
  obtain ⟨bytes, hbytes, -, hlength, rfl⟩ := h
  refine ⟨?_, hlength⟩
  rw [inetNtop, map_octet_of_mapM hbytes, List.intercalate_splitOn]

example : inetPton [49, 48, 46, 48, 46, 48, 46, 50, 53, 53] = some [10, 0, 0, 255] := by
  decide +kernel

end Covered.Network

namespace Covered.Common.NetworkAddr

open Lib.ByteStream Network

variable {S : Type}

def serializeTo (sink : Sink S) (addr : NetworkAddr) : StateT S Option Unit := do
  let ipint ← ofOption (inetPton addr.ipstr)
  sink.put ipint
  sink.put (bigEndian 2 addr.port.toNat)

def deserializeFrom (source : Source S) : StateT S Option NetworkAddr := do
  let ipint ← source.get 4
  let port ← source.getBigEndian 2
  return ⟨inetNtop ipint, UInt16.ofNat port⟩

/-- An address from which messages are sent. -/
structure Sends (addr : NetworkAddr) : Prop where
  ipstr : (inetPton addr.ipstr).isSome = true
  port : udpMinPort < addr.port.toNat

theorem emits (sink : Sink S) {addr : NetworkAddr} {ipint : List UInt8}
    (h : inetPton addr.ipstr = some ipint) :
    Emits sink (addr.serializeTo sink) (ipint ++ bigEndian 2 addr.port.toNat) :=
  Emits.afterOption h ((emits_put sink _).andThen (emits_put sink _))

theorem parses (source : Source S) {addr : NetworkAddr} {ipint : List UInt8}
    (h : inetPton addr.ipstr = some ipint) :
    Parses source (deserializeFrom source) addr (ipint ++ bigEndian 2 addr.port.toNat) := by
  obtain ⟨hntop, hlength⟩ := inetNtop_of_inetPton h
  have hport : addr.port.toNat < 256 ^ 2 := addr.port.toNat_lt
  have haddr : addr = ⟨inetNtop ipint, UInt16.ofNat addr.port.toNat⟩ := by
    rw [hntop, UInt16.ofNat_toNat]
  refine (parses_get source hlength).andThen ?_
  have hread := (parses_getBigEndian source hport).map
    fun port => (⟨inetNtop ipint, UInt16.ofNat port⟩ : NetworkAddr)
  rw [← haddr] at hread
  exact hread

end Covered.Common.NetworkAddr

namespace Covered.Network

open Common Lib.ByteStream Lib.Checked

/-! ## Fragment headers -/

structure UdpFragHdr where
  fragmentIdx : Nat
  fragmentCnt : Nat
  msgPayloadSize : Nat
  msgSeqnum : Nat
  sourceAddr : NetworkAddr

namespace UdpFragHdr

variable {S : Type}

def serializeTo (sink : Sink S) (hdr : UdpFragHdr) : StateT S Option Unit := do
  sink.put (bigEndian 4 hdr.fragmentIdx)
  sink.put (bigEndian 4 hdr.fragmentCnt)
  sink.put (bigEndian 4 hdr.msgPayloadSize)
  sink.put (bigEndian 4 hdr.msgSeqnum)
  hdr.sourceAddr.serializeTo sink

def deserializeFrom (source : Source S) : StateT S Option UdpFragHdr := do
  let fragmentIdx ← source.getBigEndian 4
  let fragmentCnt ← source.getBigEndian 4
  let msgPayloadSize ← source.getBigEndian 4
  let msgSeqnum ← source.getBigEndian 4
  let sourceAddr ← NetworkAddr.deserializeFrom source
  return ⟨fragmentIdx, fragmentCnt, msgPayloadSize, msgSeqnum, sourceAddr⟩

/-- The header in front of a packet payload. -/
def serialize (hdr : UdpFragHdr) (pktPayload : DynamicArray) : Option (DynamicArray × Nat) := do
  let (_, (array, size)) ← hdr.serializeTo DynamicArray.sink (pktPayload, 0)
  require (size = udpFraghdrSize)
  return (array, size)

def deserialize (pktPayload : DynamicArray) : Option UdpFragHdr := do
  let (hdr, reader) ← deserializeFrom DynamicArray.source ⟨pktPayload, 0, Nat.zero_le _⟩
  require (reader.size = udpFraghdrSize)
  return hdr

/-- The bytes of a header whose address has the given bytes. -/
def wire (hdr : UdpFragHdr) (ipint : List UInt8) : List UInt8 :=
  bigEndian 4 hdr.fragmentIdx ++ (bigEndian 4 hdr.fragmentCnt ++
    (bigEndian 4 hdr.msgPayloadSize ++ (bigEndian 4 hdr.msgSeqnum ++
      (ipint ++ bigEndian 2 hdr.sourceAddr.port.toNat))))

/-- The numbers are 32-bit numbers. -/
structure InRange (hdr : UdpFragHdr) : Prop where
  fragmentIdx : hdr.fragmentIdx < 2 ^ 32
  fragmentCnt : hdr.fragmentCnt < 2 ^ 32
  msgPayloadSize : hdr.msgPayloadSize < 2 ^ 32
  msgSeqnum : hdr.msgSeqnum < 2 ^ 32

section Wire

variable {hdr : UdpFragHdr} {ipint : List UInt8}

theorem length_wire (h : ipint.length = 4) : (hdr.wire ipint).length = udpFraghdrSize := by
  simp only [wire, List.length_append, length_bigEndian, h]
  rfl

theorem emits (sink : Sink S) (h : inetPton hdr.sourceAddr.ipstr = some ipint) :
    Emits sink (hdr.serializeTo sink) (hdr.wire ipint) := by
  refine (emits_put sink _).andThen ((emits_put sink _).andThen ?_)
  refine (emits_put sink _).andThen ((emits_put sink _).andThen ?_)
  exact NetworkAddr.emits sink h

theorem parses (source : Source S) (hrange : hdr.InRange)
    (h : inetPton hdr.sourceAddr.ipstr = some ipint) :
    Parses source (deserializeFrom source) hdr (hdr.wire ipint) := by
  have hidx : hdr.fragmentIdx < 256 ^ 4 := hrange.fragmentIdx
  have hcnt : hdr.fragmentCnt < 256 ^ 4 := hrange.fragmentCnt
  have hsize : hdr.msgPayloadSize < 256 ^ 4 := hrange.msgPayloadSize
  have hseqnum : hdr.msgSeqnum < 256 ^ 4 := hrange.msgSeqnum
  refine (parses_getBigEndian source hidx).andThen ?_
  refine (parses_getBigEndian source hcnt).andThen ?_
  refine (parses_getBigEndian source hsize).andThen ?_
  refine (parses_getBigEndian source hseqnum).andThen ?_
  exact (NetworkAddr.parses source h).map _

variable {pktPayload : DynamicArray}

/-- The header is written to an empty packet. -/
theorem serialize_eq (h : inetPton hdr.sourceAddr.ipstr = some ipint)
    (hempty : pktPayload.bytes = []) (hcapacity : udpFraghdrSize ≤ pktPayload.capacity) :
    ∃ array, hdr.serialize pktPayload = some (array, udpFraghdrSize) ∧
      array.bytes = hdr.wire ipint ∧ pktPayload.capacity ≤ array.capacity := by
  have hlength : (hdr.wire ipint).length = udpFraghdrSize := length_wire (inetNtop_of_inetPton h).2
  have hfits : DynamicArray.sinkAtEnd.Fits (pktPayload, 0)
      ((hdr.wire ipint).length + (pktPayload.capacity - udpFraghdrSize)) := by
    refine ⟨by simp [hempty], ?_⟩
    dsimp only
    omega
  obtain ⟨⟨array, size⟩, hwrite, hwritten, hsize, hroom⟩ :=
    emits DynamicArray.sinkAtEnd h (pktPayload, 0) _ hfits
  have hbytes : array.bytes = pktPayload.bytes ++ hdr.wire ipint := hwritten
  rw [hempty, List.nil_append] at hbytes
  have hcount : size = udpFraghdrSize := by
    rw [show size = 0 + (hdr.wire ipint).length from hsize, Nat.zero_add, hlength]
  have hrest : size + (pktPayload.capacity - udpFraghdrSize) ≤ array.capacity := hroom.2
  -- the two sinks write in the same way
  have hsink : hdr.serializeTo DynamicArray.sink (pktPayload, 0) = some ((), (array, size)) :=
    hwrite
  refine ⟨array, ?_, hbytes, by omega⟩
  simp only [serialize, hsink, some_bind, hcount, require_bind trivial, Option.pure_def]

/-- The header of a packet is read back. -/
theorem deserialize_eq (hrange : hdr.InRange) (h : inetPton hdr.sourceAddr.ipstr = some ipint)
    {rest : List UInt8}
    (hbytes : pktPayload.bytes = hdr.wire ipint ++ rest) : deserialize pktPayload = some hdr := by
  have hremaining : DynamicArray.source.remaining ⟨pktPayload, 0, Nat.zero_le _⟩ =
      hdr.wire ipint ++ rest := hbytes
  obtain ⟨reader, hread, -, hsize⟩ := parses DynamicArray.source hrange h _ _ hremaining
  have hcount : reader.size = udpFraghdrSize := by
    rw [length_wire (inetNtop_of_inetPton h).2] at hsize
    exact hsize.trans (Nat.zero_add _)
  simp only [deserialize, hread, some_bind, require_bind hcount, Option.pure_def]

end Wire

end UdpFragHdr

/-! ## The client -/

/-- The packet with one fragment of a message. -/
def sendFragment (messagePayload : DynamicArray) (fragmentCnt msgSeqnum : Nat)
    (sourceAddr : NetworkAddr) (fragmentIdx : Nat) : Option DynamicArray := do
  let messagePayloadSize := messagePayload.bytes.length
  let pktPayload ← DynamicArray.ofCapacity udpMaxPktPayload
  let hdr : UdpFragHdr :=
    ⟨fragmentIdx, fragmentCnt, messagePayloadSize, msgSeqnum, sourceAddr⟩
  let (pktPayload, fraghdrSize) ← hdr.serialize pktPayload
  let fragmentPayloadSize ← getFragmentPayloadSize fragmentIdx messagePayloadSize
  messagePayload.arraycpy (getFragmentOffset fragmentIdx) pktPayload fraghdrSize
    fragmentPayloadSize

/-- The packets of a message in the order in which they are sent. -/
def send (messagePayload : DynamicArray) (msgSeqnum : Nat) (sourceAddr : NetworkAddr) :
    Option (List DynamicArray) :=
  let fragmentCnt := getFragmentCnt messagePayload.bytes.length
  (List.range fragmentCnt).mapM (sendFragment messagePayload fragmentCnt msgSeqnum sourceAddr)

/-! ## The server -/

/-- The fragments of a message of which some are missing, in ascending order of their indices. -/
structure MsgFragStatsEntry where
  fragidxFragpayloadMap : List (Nat × DynamicArray)
  fragcnt : Nat
  msgSeqnum : Nat

namespace MsgFragStatsEntry

def Tracks (entry : MsgFragStatsEntry) (fragidx : Nat) : Prop :=
  fragidx ∈ entry.fragidxFragpayloadMap.map Prod.fst

instance (entry : MsgFragStatsEntry) (fragidx : Nat) : Decidable (entry.Tracks fragidx) :=
  inferInstanceAs (Decidable (_ ∈ _))

/-- Insertion into a map that is ordered by its keys. -/
def insertOrdered (fragidx : Nat) (fragPayload : DynamicArray)
    (fragments : List (Nat × DynamicArray)) : List (Nat × DynamicArray) :=
  fragments.orderedInsert (fun f g => f.1 ≤ g.1) (fragidx, fragPayload)

def isLastFrag (entry : MsgFragStatsEntry) (fraghdr : UdpFragHdr) : Bool :=
  decide (entry.fragidxFragpayloadMap.length = entry.fragcnt - 1 ∧
    ¬ entry.Tracks fraghdr.fragmentIdx ∧ entry.msgSeqnum = fraghdr.msgSeqnum)

/-- The entry with the payload of a packet copied into it. -/
def track (entry : MsgFragStatsEntry) (fraghdr : UdpFragHdr) (pktPayload : DynamicArray) :
    Option MsgFragStatsEntry := do
  require (¬ entry.Tracks fraghdr.fragmentIdx)
  let fragPayload ← DynamicArray.ofCapacity udpMaxFragPayload
  let fragPayload ← pktPayload.arraycpy udpFraghdrSize fragPayload 0
    (pktPayload.bytes.length - udpFraghdrSize)
  return { entry with
    fragidxFragpayloadMap :=
      insertOrdered fraghdr.fragmentIdx fragPayload entry.fragidxFragpayloadMap }

def insertFrag (entry : MsgFragStatsEntry) (fraghdr : UdpFragHdr) (pktPayload : DynamicArray) :
    Option MsgFragStatsEntry :=
  if entry.fragidxFragpayloadMap.length = 0 then
    { entry with fragcnt := fraghdr.fragmentCnt, msgSeqnum := fraghdr.msgSeqnum }.track fraghdr
      pktPayload
  else if fraghdr.msgSeqnum < entry.msgSeqnum then some entry
  else if fraghdr.msgSeqnum > entry.msgSeqnum then
    -- a newer message takes the place of the tracked one
    MsgFragStatsEntry.track ⟨[], fraghdr.fragmentCnt, fraghdr.msgSeqnum⟩ fraghdr pktPayload
  else do
    require (fraghdr.fragmentCnt = entry.fragcnt)
    entry.track fraghdr pktPayload

end MsgFragStatsEntry

/-- The entries by source address. -/
abbrev MsgFragStats : Type := NetworkAddr → Option MsgFragStatsEntry

namespace MsgFragStats

/-- Track the fragment, unless it is the last one of its message. -/
def insertEntry (stats : MsgFragStats) (sourceAddr : NetworkAddr) (pktPayload : DynamicArray) :
    Option (MsgFragStats × Bool) := do
  let fraghdr ← UdpFragHdr.deserialize pktPayload
  if fraghdr.fragmentCnt = 1 then
    return (stats, true)
  else
    match stats sourceAddr with
    | none => do
        let entry ← MsgFragStatsEntry.insertFrag ⟨[], 0, 0⟩ fraghdr pktPayload
        return (Function.update stats sourceAddr (some entry), false)
    | some entry =>
        if entry.isLastFrag fraghdr then
          return (stats, true)
        else do
          let entry ← entry.insertFrag fraghdr pktPayload
          return (Function.update stats sourceAddr (some entry), false)

def removeEntry (stats : MsgFragStats) (sourceAddr : NetworkAddr) : MsgFragStats :=
  Function.update stats sourceAddr none

end MsgFragStats

/-- Copy a tracked fragment into the message. -/
def copyFragment (msgPayloadSize : Nat) (msgPayload : DynamicArray)
    (fragment : Nat × DynamicArray) : Option DynamicArray := do
  let fragmentPayloadSize ← getFragmentPayloadSize fragment.1 msgPayloadSize
  fragment.2.arraycpy 0 msgPayload (getFragmentOffset fragment.1) fragmentPayloadSize

/-- Copy the fragments of a message of several fragments, all but the last one, and forget them. -/
def takeFragments (stats : MsgFragStats) (fraghdr : UdpFragHdr) (msgPayload : DynamicArray) :
    Option (MsgFragStats × DynamicArray) :=
  if fraghdr.fragmentCnt > 1 then do
    let entry ← stats fraghdr.sourceAddr
    let msgPayload ←
      entry.fragidxFragpayloadMap.foldlM (copyFragment fraghdr.msgPayloadSize) msgPayload
    return (stats.removeEntry fraghdr.sourceAddr, msgPayload)
  else some (stats, msgPayload)

/-- How one round of the receive loop ends: the loop goes on, or it ends without or with a
message. -/
inductive Received
  | pending
  | timeout
  | message (msgPayload : List UInt8)
deriving DecidableEq

/-- One round of the receive loop for a packet that arrived. The loop keeps nothing but the entries
from one round to the next. -/
def recvPacket (stats : MsgFragStats) (pktPayload : DynamicArray) :
    Option (MsgFragStats × Received) :=
  if pktPayload.bytes.length < udpFraghdrSize then some (stats, .timeout)
  else do
    let fraghdr ← UdpFragHdr.deserialize pktPayload
    if fraghdr.sourceAddr.port.toNat ≤ udpMinPort then
      return (stats, .timeout)
    else do
      let (stats, isLastFrag) ← stats.insertEntry fraghdr.sourceAddr pktPayload
      if isLastFrag = true then do
        let msgPayload ← DynamicArray.ofCapacity fraghdr.msgPayloadSize
        let (stats, msgPayload) ← takeFragments stats fraghdr msgPayload
        let fragmentPayloadSize ←
          getFragmentPayloadSize fraghdr.fragmentIdx fraghdr.msgPayloadSize
        require (fragmentPayloadSize = pktPayload.bytes.length - udpFraghdrSize)
        let msgPayload ← pktPayload.arraycpy udpFraghdrSize msgPayload
          (getFragmentOffset fraghdr.fragmentIdx) fragmentPayloadSize
        return (stats, .message msgPayload.bytes)
      else
        return (stats, .pending)

end Covered.Network
