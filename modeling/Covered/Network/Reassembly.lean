import Mathlib.Data.Finset.Card
import Covered.Network.Fragmentation

/-!
# What a server makes of the fragments of a message

`Message` is a message as it is given to a client, and `packet` the packet with one of its
fragments: `send_eq` is that the client sends these packets. `Effect` lists what a packet of a
message does at a server that tracks fragments of messages, and `recvPacket_effect` is that every
packet that has not arrived before does one of these.
-/

set_option autoImplicit false

namespace Covered.Network

open Common Lib.ByteStream Lib.Checked Option List DynamicArray MsgFragStatsEntry

/-! ## Messages and their packets -/

/-- A message that a client sends. It begins with its type and its source, so it is not empty. -/
structure Message where
  sourceAddr : NetworkAddr
  msgSeqnum : Nat
  payload : List UInt8
  source_sends : sourceAddr.Sends
  seqnum_lt : msgSeqnum < 2 ^ 32
  payload_ne : payload ≠ []
  payload_lt : payload.length < 2 ^ 32

namespace Message

def fragmentCnt (m : Message) : Nat := getFragmentCnt m.payload.length

/-- The bytes of the fragment with the given index. -/
def fragment (m : Message) (fragmentIdx : Nat) : List UInt8 :=
  (m.payload.drop (getFragmentOffset fragmentIdx)).take
    ((getFragmentPayloadSize fragmentIdx m.payload.length).getD 0)

def fraghdr (m : Message) (fragmentIdx : Nat) : UdpFragHdr :=
  ⟨fragmentIdx, m.fragmentCnt, m.payload.length, m.msgSeqnum, m.sourceAddr⟩

def ipint (m : Message) : List UInt8 := (inetPton m.sourceAddr.ipstr).get m.source_sends.ipstr

/-- The packet with the fragment of the given index. -/
def packet (m : Message) (fragmentIdx : Nat) : List UInt8 :=
  (m.fraghdr fragmentIdx).wire m.ipint ++ m.fragment fragmentIdx

/-- The payload that is given to the client. -/
def messagePayload (m : Message) : DynamicArray :=
  ⟨m.payload, m.payload.length, Nat.le_refl _, m.payload_lt⟩

variable {m : Message} {fragmentIdx : Nat}

theorem inetPton_eq (m : Message) : inetPton m.sourceAddr.ipstr = some m.ipint :=
  (some_get _).symm

theorem length_wire (m : Message) (fragmentIdx : Nat) :
    ((m.fraghdr fragmentIdx).wire m.ipint).length = udpFraghdrSize :=
  UdpFragHdr.length_wire (inetNtop_of_inetPton m.inetPton_eq).2

theorem fragmentCnt_lt (m : Message) : m.fragmentCnt < 2 ^ 32 := by
  have hpos : 0 < m.payload.length := length_pos_iff.2 m.payload_ne
  have hlt := m.payload_lt
  have hdiv := Nat.div_le_self (m.payload.length - 1) udpMaxFragPayload
  rw [fragmentCnt, getFragmentCnt, if_neg (Nat.ne_of_gt hpos)]
  omega

theorem inRange (h : fragmentIdx < m.fragmentCnt) : (m.fraghdr fragmentIdx).InRange where
  fragmentIdx := h.trans m.fragmentCnt_lt
  fragmentCnt := m.fragmentCnt_lt
  msgPayloadSize := m.payload_lt
  msgSeqnum := m.seqnum_lt

/-- Size and place of a fragment. -/
theorem fragment_spec (h : fragmentIdx < m.fragmentCnt) :
    getFragmentPayloadSize fragmentIdx m.payload.length = some (m.fragment fragmentIdx).length ∧
    (m.fragment fragmentIdx).length ≤ udpMaxFragPayload ∧
    getFragmentOffset fragmentIdx + (m.fragment fragmentIdx).length ≤ m.payload.length ∧
    m.fragment fragmentIdx = (m.payload.drop (getFragmentOffset fragmentIdx)).take
      (m.fragment fragmentIdx).length ∧
    ∀ j < m.payload.length, j / udpMaxFragPayload = fragmentIdx →
      getFragmentOffset fragmentIdx ≤ j ∧
        j < getFragmentOffset fragmentIdx + (m.fragment fragmentIdx).length := by
  obtain ⟨size, hsize, hmax, hfits, hspan⟩ := getFragmentPayloadSize_eq h
  have hfragment : m.fragment fragmentIdx =
      (m.payload.drop (getFragmentOffset fragmentIdx)).take size := by
    rw [fragment, hsize, getD_some]
  have hlength : (m.fragment fragmentIdx).length = size := by
    rw [hfragment, length_take, length_drop]
    omega
  rw [hlength]
  exact ⟨hsize, hmax, hfits, hfragment, hspan⟩

theorem length_packet (m : Message) (fragmentIdx : Nat) :
    (m.packet fragmentIdx).length = udpFraghdrSize + (m.fragment fragmentIdx).length := by
  rw [packet, length_append, length_wire]

/-- A packet has the bytes of its fragment after the header. -/
theorem drop_packet (m : Message) (fragmentIdx : Nat) :
    (m.packet fragmentIdx).drop udpFraghdrSize = m.fragment fragmentIdx := by
  rw [packet, ← m.length_wire fragmentIdx, drop_left]

theorem sendFragment_eq (h : fragmentIdx < m.fragmentCnt) :
    ∃ pkt, sendFragment m.messagePayload m.fragmentCnt m.msgSeqnum m.sourceAddr fragmentIdx =
      some pkt ∧ pkt.bytes = m.packet fragmentIdx := by
  obtain ⟨hsize, hmax, hwithin, hfragment, -⟩ := fragment_spec h
  have hlt : udpMaxPktPayload < 2 ^ 32 := by decide
  have hmaximum : udpFraghdrSize + udpMaxFragPayload = udpMaxPktPayload := by decide
  have hroom : udpFraghdrSize ≤ udpMaxPktPayload := by decide
  have hempty : (⟨[], udpMaxPktPayload, Nat.zero_le _, hlt⟩ : DynamicArray).bytes = [] := rfl
  have hpton : inetPton (m.fraghdr fragmentIdx).sourceAddr.ipstr = some m.ipint := m.inetPton_eq
  obtain ⟨array, hserialize, hbytes, hcapacity⟩ := UdpFragHdr.serialize_eq hpton hempty hroom
  have hcapacity' : udpMaxPktPayload ≤ array.capacity := hcapacity
  have hlength : udpFraghdrSize = array.bytes.length := by rw [hbytes, length_wire]
  -- the fragment is copied after the header
  have hfits : udpFraghdrSize + (m.fragment fragmentIdx).length ≤ array.capacity := by omega
  obtain ⟨pkt, hpkt, hpktBytes, -⟩ := deserialize_eq hlength.le hfits
  have hcopy : m.messagePayload.arraycpy (getFragmentOffset fragmentIdx) array udpFraghdrSize
      (m.fragment fragmentIdx).length = some pkt := by
    rw [arraycpy_eq hwithin, ← hpkt]
    exact congrArg _ hfragment.symm
  refine ⟨pkt, ?_, ?_⟩
  · simp only [sendFragment, ofCapacity_eq hlt, bind_eq_bind, bind_some]
    have hsize' : getFragmentPayloadSize fragmentIdx m.messagePayload.bytes.length =
        some (m.fragment fragmentIdx).length := hsize
    have hhdr : UdpFragHdr.serialize ⟨fragmentIdx, m.fragmentCnt, m.messagePayload.bytes.length,
        m.msgSeqnum, m.sourceAddr⟩ ⟨[], udpMaxPktPayload, Nat.zero_le _, hlt⟩ =
          some (array, udpFraghdrSize) := hserialize
    simp only [hhdr, hsize', bind_some, hcopy]
  · rw [hpktBytes, hlength, take_length, drop_eq_nil_of_le (Nat.le_add_right ..),
      append_nil, hbytes]
    rfl

/-- The client sends the packets of all fragments. -/
theorem send_eq (m : Message) :
    ∃ pkts, send m.messagePayload m.msgSeqnum m.sourceAddr = some pkts ∧
      pkts.map bytes = (range m.fragmentCnt).map m.packet := by
  have hall : ∀ idxs : List Nat, (∀ idx ∈ idxs, idx < m.fragmentCnt) →
      ∃ pkts, idxs.mapM (sendFragment m.messagePayload m.fragmentCnt m.msgSeqnum m.sourceAddr) =
        some pkts ∧ pkts.map bytes = idxs.map m.packet := by
    intro idxs hidxs
    induction idxs with
    | nil => exact ⟨[], rfl, rfl⟩
    | cons idx rest ih =>
      obtain ⟨pkt, hpkt, hbytes⟩ := sendFragment_eq (hidxs idx mem_cons_self)
      obtain ⟨pkts, hpkts, hmap⟩ := ih fun j hj => hidxs j (mem_cons_of_mem idx hj)
      refine ⟨pkt :: pkts, ?_, ?_⟩
      · simp only [mapM_cons, hpkt, hpkts, some_bind, Option.pure_def]
      · rw [map_cons, map_cons, hbytes, hmap]
  exact hall (range m.fragmentCnt) fun idx hidx => mem_range.1 hidx

/-- A server reads the header of a packet. -/
theorem deserialize_packet {pkt : DynamicArray} (h : fragmentIdx < m.fragmentCnt)
    (hpkt : pkt.bytes = m.packet fragmentIdx) :
    UdpFragHdr.deserialize pkt = some (m.fraghdr fragmentIdx) :=
  UdpFragHdr.deserialize_eq (inRange h) m.inetPton_eq hpkt

/-- A server copies the fragment out of its packet. -/
theorem arraycpy_packet {pkt dst : DynamicArray} {position : Nat}
    (hpkt : pkt.bytes = m.packet fragmentIdx)
    (hfits : position + (m.fragment fragmentIdx).length ≤ dst.capacity) :
    ∃ dst', pkt.arraycpy udpFraghdrSize dst position (m.fragment fragmentIdx).length = some dst' ∧
      dst'.bytes = overwritten dst.bytes position (m.fragment fragmentIdx) ∧
      dst'.capacity = dst.capacity := by
  have hwithin : udpFraghdrSize + (m.fragment fragmentIdx).length ≤ pkt.bytes.length := by
    rw [hpkt, length_packet]
  rw [arraycpy_eq hwithin, hpkt, drop_packet, take_length]
  exact deserialize_eq_some hfits

end Message

/-! ## Tracked fragments -/

/-- The entry has some of the fragments of the message, but not all. -/
structure Holds (entry : MsgFragStatsEntry) (m : Message) : Prop where
  msgSeqnum : entry.msgSeqnum = m.msgSeqnum
  fragcnt : entry.fragcnt = m.fragmentCnt
  distinct : (entry.fragidxFragpayloadMap.map Prod.fst).Nodup
  fragments : ∀ fragment ∈ entry.fragidxFragpayloadMap,
    fragment.1 < m.fragmentCnt ∧ fragment.2.bytes = m.fragment fragment.1

section Holds

variable {entry : MsgFragStatsEntry} {m : Message} {fragmentIdx : Nat} {pkt : DynamicArray}

/-- The fragments of a message of several fragments, at least one and not all of them. -/
structure Tracked (entry : MsgFragStatsEntry) (m : Message) : Prop extends Holds entry m where
  several : 1 < m.fragmentCnt
  nonempty : entry.fragidxFragpayloadMap ≠ []
  incomplete : entry.fragidxFragpayloadMap.length < m.fragmentCnt

/-- Another fragment of the message is tracked. -/
theorem track_eq (hholds : Holds entry m) (hidx : fragmentIdx < m.fragmentCnt)
    (hnew : ¬ entry.Tracks fragmentIdx) (hpkt : pkt.bytes = m.packet fragmentIdx) :
    ∃ entry', entry.track (m.fraghdr fragmentIdx) pkt = some entry' ∧ Holds entry' m ∧
      (∀ j, entry'.Tracks j ↔ j = fragmentIdx ∨ entry.Tracks j) ∧
      entry'.fragidxFragpayloadMap.length = entry.fragidxFragpayloadMap.length + 1 := by
  have hlt : udpMaxFragPayload < 2 ^ 32 := by decide
  obtain ⟨-, hmax, -⟩ := Message.fragment_spec hidx
  have hroom : 0 + (m.fragment fragmentIdx).length ≤
      (⟨[], udpMaxFragPayload, Nat.zero_le _, hlt⟩ : DynamicArray).capacity := by
    rw [Nat.zero_add]
    exact hmax
  obtain ⟨fragPayload, hcopy, hbytes, -⟩ := Message.arraycpy_packet hpkt hroom
  have hsize : pkt.bytes.length - udpFraghdrSize = (m.fragment fragmentIdx).length := by
    rw [hpkt, Message.length_packet, Nat.add_sub_cancel_left]
  have hnew' : ¬ entry.Tracks (m.fraghdr fragmentIdx).fragmentIdx := hnew
  have hperm := perm_orderedInsert (fun f g : Nat × DynamicArray => f.1 ≤ g.1)
    (fragmentIdx, fragPayload) entry.fragidxFragpayloadMap
  have htracks : ∀ j, j ∈ (insertOrdered fragmentIdx fragPayload
      entry.fragidxFragpayloadMap).map Prod.fst ↔ j = fragmentIdx ∨ entry.Tracks j := by
    intro j
    rw [insertOrdered, (hperm.map Prod.fst).mem_iff, map_cons,
      mem_cons, MsgFragStatsEntry.Tracks]
  let entry' : MsgFragStatsEntry := { entry with
    fragidxFragpayloadMap :=
      insertOrdered fragmentIdx fragPayload entry.fragidxFragpayloadMap }
  refine ⟨entry', ?_, ⟨hholds.msgSeqnum, hholds.fragcnt, ?_, ?_⟩, htracks, hperm.length_eq⟩
  · simp only [track, require_bind hnew', ofCapacity_eq hlt, hsize,
      hcopy, some_bind, Option.pure_def]
    rfl
  · refine (hperm.map Prod.fst).nodup_iff.2 ?_
    exact nodup_cons.2 ⟨hnew, hholds.distinct⟩
  · intro fragment hfragment
    rcases mem_cons.1 (hperm.mem_iff.1 hfragment) with rfl | hmem
    · refine ⟨hidx, ?_⟩
      rw [hbytes, overwritten_eq (Nat.le_refl 0), take_nil, drop_nil,
        append_nil, nil_append]
    · exact hholds.fragments fragment hmem

/-- An entry that lacks one fragment has all the others. -/
theorem tracks_of_length (hholds : Holds entry m) (hidx : fragmentIdx < m.fragmentCnt)
    (hnew : ¬ entry.Tracks fragmentIdx)
    (hlength : entry.fragidxFragpayloadMap.length = m.fragmentCnt - 1) {j : Nat}
    (hj : j < m.fragmentCnt) : j = fragmentIdx ∨ entry.Tracks j := by
  have hnodup : (fragmentIdx :: entry.fragidxFragpayloadMap.map Prod.fst).Nodup :=
    nodup_cons.2 ⟨hnew, hholds.distinct⟩
  have hsub : (fragmentIdx :: entry.fragidxFragpayloadMap.map Prod.fst).toFinset ⊆
      Finset.range m.fragmentCnt := by
    intro i hi
    rw [List.mem_toFinset, mem_cons] at hi
    rw [Finset.mem_range]
    rcases hi with rfl | hi
    · exact hidx
    · obtain ⟨fragment, hfragment, rfl⟩ := mem_map.1 hi
      exact (hholds.fragments fragment hfragment).1
  have hcard : (Finset.range m.fragmentCnt).card ≤
      (fragmentIdx :: entry.fragidxFragpayloadMap.map Prod.fst).toFinset.card := by
    rw [toFinset_card_of_nodup hnodup, Finset.card_range, length_cons, length_map]
    omega
  have heq := Finset.eq_of_subset_of_card_le hsub hcard
  have hmem : j ∈ (fragmentIdx :: entry.fragidxFragpayloadMap.map Prod.fst).toFinset := by
    rw [heq]
    exact Finset.mem_range.2 hj
  rw [List.mem_toFinset, mem_cons] at hmem
  exact hmem

end Holds

/-! ## Reassembly -/

/-- The fragments for which `P` holds are in their places, and nothing lies beyond the message. -/
structure Assembled (m : Message) (P : Nat → Prop) (msgPayload : DynamicArray) : Prop where
  capacity : msgPayload.capacity = m.payload.length
  bytes : ∀ j < m.payload.length, P (j / udpMaxFragPayload) →
    msgPayload.bytes[j]? = m.payload[j]?

section Assembled

variable {m : Message} {P : Nat → Prop} {msgPayload : DynamicArray} {fragmentIdx : Nat}

theorem Assembled.length_le (h : Assembled m P msgPayload) :
    msgPayload.bytes.length ≤ m.payload.length :=
  h.capacity ▸ msgPayload.fits

/-- One more fragment is put in its place. -/
theorem Assembled.overwrite (h : Assembled m P msgPayload) (hidx : fragmentIdx < m.fragmentCnt)
    {written : DynamicArray} (hcapacity : written.capacity = msgPayload.capacity)
    (hbytes : written.bytes = overwritten msgPayload.bytes
      (getFragmentOffset fragmentIdx) (m.fragment fragmentIdx)) :
    Assembled m (fun i => i = fragmentIdx ∨ P i) written := by
  obtain ⟨-, hmax, hwithin, hfragment, hspan⟩ := Message.fragment_spec hidx
  refine ⟨hcapacity.trans h.capacity, fun j hj hP => ?_⟩
  rw [hbytes]
  by_cases hhere : j / udpMaxFragPayload = fragmentIdx
  · obtain ⟨hlow, hhigh⟩ := hspan j hj hhere
    rw [getElem?_overwritten_of_mem hlow hhigh, hfragment,
      getElem?_take_of_lt (by omega), getElem?_drop]
    congr 1
    omega
  · have hsame := h.bytes j hj (hP.resolve_left hhere)
    have hlt : j < msgPayload.bytes.length := by
      rw [getElem?_eq_getElem hj] at hsame
      exact (List.getElem?_eq_some_iff.1 hsame).1
    -- a byte of another fragment is before or after this one
    have hout : j < getFragmentOffset fragmentIdx ∨
        getFragmentOffset fragmentIdx + (m.fragment fragmentIdx).length ≤ j := by
      by_contra hin
      rw [not_or, not_lt, not_le, getFragmentOffset] at hin
      apply hhere
      apply Nat.div_eq_of_lt_le hin.1
      rw [Nat.succ_mul]
      omega
    rw [getElem?_overwritten_of_not_mem hlt hout, hsame]

/-- All fragments together are the message. -/
theorem Assembled.eq_payload (h : Assembled m P msgPayload) (hall : ∀ i < m.fragmentCnt, P i) :
    msgPayload.bytes = m.payload := by
  apply ext_getElem?
  intro j
  by_cases hj : j < m.payload.length
  · exact h.bytes j hj (hall _ (div_lt_getFragmentCnt hj))
  · have hlength := h.length_le
    rw [getElem?_eq_none (by omega), getElem?_eq_none (by omega)]

/-- Tracked fragments are copied to their places. -/
theorem foldlM_copyFragment {fragments : List (Nat × DynamicArray)}
    (hfragments : ∀ fragment ∈ fragments,
      fragment.1 < m.fragmentCnt ∧ fragment.2.bytes = m.fragment fragment.1)
    (h : Assembled m P msgPayload) :
    ∃ msgPayload', fragments.foldlM (copyFragment m.payload.length) msgPayload = some msgPayload' ∧
      Assembled m (fun i => i ∈ fragments.map Prod.fst ∨ P i) msgPayload' := by
  induction fragments generalizing msgPayload P with
  | nil =>
    refine ⟨msgPayload, rfl, h.capacity, fun j hj hP => h.bytes j hj ?_⟩
    exact hP.resolve_left not_mem_nil
  | cons fragment rest ih =>
    obtain ⟨hidx, hdata⟩ := hfragments fragment mem_cons_self
    obtain ⟨hsize, -, hwithin, -⟩ := Message.fragment_spec hidx
    have hfits : getFragmentOffset fragment.1 + (m.fragment fragment.1).length ≤
        msgPayload.capacity := by
      rw [h.capacity]
      exact hwithin
    obtain ⟨written, hwritten, hbytes, hcapacity⟩ := deserialize_eq_some hfits
    have hcopy : copyFragment m.payload.length msgPayload fragment = some written := by
      have harray : 0 + (m.fragment fragment.1).length ≤ fragment.2.bytes.length := by
        rw [hdata, Nat.zero_add]
      simp only [copyFragment, hsize, some_bind, arraycpy_eq harray, drop_zero,
        hdata, take_length, hwritten]
    obtain ⟨msgPayload', hfold, hassembled⟩ :=
      ih (fun other hother => hfragments other (mem_cons_of_mem _ hother))
        (h.overwrite hidx hcapacity hbytes)
    refine ⟨msgPayload', ?_, hassembled.capacity, fun j hj hP => hassembled.bytes j hj ?_⟩
    · simp only [foldlM_cons, hcopy, some_bind, hfold]
    · rw [map_cons, mem_cons] at hP
      tauto

end Assembled

/-! ## One round of the receive loop -/

section Receive

variable {stats : MsgFragStats} {m : Message} {fragmentIdx : Nat} {pkt : DynamicArray}
  {entry : MsgFragStatsEntry}

/-- The round for a packet of a message, once the entries have been updated. -/
theorem recvPacket_eq (hidx : fragmentIdx < m.fragmentCnt)
    (hpkt : pkt.bytes = m.packet fragmentIdx) {stats' : MsgFragStats} {isLastFrag : Bool}
    (hinsert : stats.insertEntry m.sourceAddr pkt = some (stats', isLastFrag)) :
    recvPacket stats pkt =
      if isLastFrag = true then do
        let msgPayload ← ofCapacity m.payload.length
        let (stats'', msgPayload) ← takeFragments stats' (m.fraghdr fragmentIdx) msgPayload
        let msgPayload ← pkt.arraycpy udpFraghdrSize msgPayload (getFragmentOffset fragmentIdx)
          (m.fragment fragmentIdx).length
        return (stats'', .message msgPayload.bytes)
      else some (stats', .pending) := by
  have hlength : ¬ pkt.bytes.length < udpFraghdrSize := by
    rw [hpkt, Message.length_packet]
    omega
  have hport : ¬ m.sourceAddr.port.toNat ≤ udpMinPort := Nat.not_le.2 m.source_sends.port
  obtain ⟨hsize, -⟩ := Message.fragment_spec hidx
  have hrest : (m.fragment fragmentIdx).length = pkt.bytes.length - udpFraghdrSize := by
    rw [hpkt, Message.length_packet, Nat.add_sub_cancel_left]
  simp only [recvPacket, if_neg hlength, Message.deserialize_packet hidx hpkt, some_bind,
    Message.fraghdr, if_neg hport, hinsert, hsize, require_bind hrest, Option.pure_def]

/-- What a packet of a message does at a server. -/
inductive Effect (stats : MsgFragStats) (m : Message) (fragmentIdx : Nat) :
    MsgFragStats → Received → Prop
  /-- A message of one fragment is complete. -/
  | single : m.fragmentCnt = 1 → Effect stats m fragmentIdx stats (.message m.payload)
  /-- The other fragments have arrived before. -/
  | last (entry : MsgFragStatsEntry) : 1 < m.fragmentCnt → stats m.sourceAddr = some entry →
      entry.msgSeqnum = m.msgSeqnum →
      (∀ j < m.fragmentCnt, j = fragmentIdx ∨ entry.Tracks j) →
      Effect stats m fragmentIdx (stats.removeEntry m.sourceAddr) (.message m.payload)
  /-- The server tracks a newer message. -/
  | older (entry : MsgFragStatsEntry) : 1 < m.fragmentCnt → stats m.sourceAddr = some entry →
      m.msgSeqnum < entry.msgSeqnum → Effect stats m fragmentIdx stats .pending
  /-- The fragment is tracked, with those of the message that are tracked already. -/
  | tracked (entry : MsgFragStatsEntry) : Tracked entry m →
      (∀ j, entry.Tracks j ↔ j = fragmentIdx ∨ ∃ before, stats m.sourceAddr = some before ∧
        before.msgSeqnum = m.msgSeqnum ∧ before.Tracks j) →
      (∀ before, stats m.sourceAddr = some before → before.msgSeqnum ≤ m.msgSeqnum) →
      Effect stats m fragmentIdx (Function.update stats m.sourceAddr (some entry)) .pending

section Packet

variable (hidx : fragmentIdx < m.fragmentCnt) (hpkt : pkt.bytes = m.packet fragmentIdx)
include hidx hpkt

theorem recvPacket_single (hsingle : m.fragmentCnt = 1) :
    recvPacket stats pkt = some (stats, .message m.payload) := by
  have hinsert : stats.insertEntry m.sourceAddr pkt = some (stats, true) := by
    simp only [MsgFragStats.insertEntry, Message.deserialize_packet hidx hpkt, Message.fraghdr,
      some_bind, if_pos hsingle, Option.pure_def]
  have hzero : fragmentIdx = 0 := by omega
  obtain ⟨-, -, hwithin, -⟩ := Message.fragment_spec hidx
  have hstart : Assembled m (fun _ => False)
      ⟨[], m.payload.length, Nat.zero_le _, m.payload_lt⟩ :=
    ⟨rfl, fun _ _ hP => hP.elim⟩
  obtain ⟨written, hcopy, hbytes, hcapacity⟩ := Message.arraycpy_packet hpkt
    (show getFragmentOffset fragmentIdx + (m.fragment fragmentIdx).length ≤
      (⟨[], m.payload.length, Nat.zero_le _, m.payload_lt⟩ : DynamicArray).capacity from hwithin)
  have hpayload := (hstart.overwrite hidx hcapacity hbytes).eq_payload fun i hi => .inl (by omega)
  have htake : takeFragments stats (m.fraghdr fragmentIdx)
      ⟨[], m.payload.length, Nat.zero_le _, m.payload_lt⟩ =
        some (stats, ⟨[], m.payload.length, Nat.zero_le _, m.payload_lt⟩) :=
    if_neg (show ¬ m.fragmentCnt > 1 by omega)
  rw [recvPacket_eq hidx hpkt hinsert, if_pos rfl]
  simp only [ofCapacity_eq m.payload_lt, some_bind, htake, hcopy, Option.pure_def,
    hpayload]

theorem recvPacket_last (hseveral : 1 < m.fragmentCnt) (hentry : stats m.sourceAddr = some entry)
    (hholds : Holds entry m) (hnew : ¬ entry.Tracks fragmentIdx)
    (hlength : entry.fragidxFragpayloadMap.length = m.fragmentCnt - 1) :
    recvPacket stats pkt = some (stats.removeEntry m.sourceAddr, .message m.payload) := by
  have hlast : entry.isLastFrag (m.fraghdr fragmentIdx) = true := by
    rw [isLastFrag, decide_eq_true_eq]
    exact ⟨by rw [hlength, hholds.fragcnt], hnew, hholds.msgSeqnum⟩
  have hinsert : stats.insertEntry m.sourceAddr pkt = some (stats, true) := by
    have hcnt : ¬ (m.fraghdr fragmentIdx).fragmentCnt = 1 := by
      show ¬ m.fragmentCnt = 1
      omega
    simp only [MsgFragStats.insertEntry, Message.deserialize_packet hidx hpkt, some_bind,
      if_neg hcnt, hentry, if_pos hlast, Option.pure_def]
  have hstart : Assembled m (fun _ => False)
      ⟨[], m.payload.length, Nat.zero_le _, m.payload_lt⟩ :=
    ⟨rfl, fun _ _ hP => hP.elim⟩
  obtain ⟨collected, hfold, hcollected⟩ := foldlM_copyFragment hholds.fragments hstart
  have htake : takeFragments stats (m.fraghdr fragmentIdx)
      ⟨[], m.payload.length, Nat.zero_le _, m.payload_lt⟩ =
        some (stats.removeEntry m.sourceAddr, collected) := by
    rw [takeFragments, if_pos (show (m.fraghdr fragmentIdx).fragmentCnt > 1 from hseveral)]
    simp only [Message.fraghdr, hentry, some_bind, hfold, Option.pure_def]
  -- the last fragment is copied after the tracked ones
  obtain ⟨-, -, hwithin, -⟩ := Message.fragment_spec hidx
  rw [← hcollected.capacity] at hwithin
  obtain ⟨written, hcopy, hbytes, hcapacity⟩ := Message.arraycpy_packet hpkt hwithin
  have hpayload := (hcollected.overwrite hidx hcapacity hbytes).eq_payload fun i hi =>
    (tracks_of_length hholds hidx hnew hlength hi).imp_right .inl
  rw [recvPacket_eq hidx hpkt hinsert, if_pos rfl]
  simp only [ofCapacity_eq m.payload_lt, some_bind, htake, hcopy, Option.pure_def,
    hpayload]

/-- The fragment is handed to the entry of the source, a fresh one if there is none. -/
theorem recvPacket_pending (hseveral : 1 < m.fragmentCnt) {before after : MsgFragStatsEntry}
    (hbefore : stats m.sourceAddr = none ∧ before = ⟨[], 0, 0⟩ ∨
      stats m.sourceAddr = some before ∧ before.isLastFrag (m.fraghdr fragmentIdx) = false)
    (hafter : before.insertFrag (m.fraghdr fragmentIdx) pkt = some after) :
    recvPacket stats pkt = some (Function.update stats m.sourceAddr (some after), .pending) := by
  have hcnt : ¬ (m.fraghdr fragmentIdx).fragmentCnt = 1 := by
    show ¬ m.fragmentCnt = 1
    omega
  have hinsert : stats.insertEntry m.sourceAddr pkt =
      some (Function.update stats m.sourceAddr (some after), false) := by
    rcases hbefore with ⟨hnone, rfl⟩ | ⟨hsome, hlast⟩
    · simp only [MsgFragStats.insertEntry, Message.deserialize_packet hidx hpkt, some_bind,
        if_neg hcnt, hnone, hafter, Option.pure_def]
    · simp only [MsgFragStats.insertEntry, Message.deserialize_packet hidx hpkt, some_bind,
        if_neg hcnt, hsome, hlast, Bool.false_eq_true, if_false, hafter, Option.pure_def]
  rw [recvPacket_eq hidx hpkt hinsert]
  rfl

/-- The first tracked fragment of a message. -/
theorem tracked_first (hseveral : 1 < m.fragmentCnt) :
    ∃ after, track ⟨[], m.fragmentCnt, m.msgSeqnum⟩ (m.fraghdr fragmentIdx) pkt =
      some after ∧ Tracked after m ∧ ∀ j, after.Tracks j ↔ j = fragmentIdx := by
  have hnone : ∀ j, ¬ MsgFragStatsEntry.Tracks ⟨[], m.fragmentCnt, m.msgSeqnum⟩ j :=
    fun j => not_mem_nil
  have hempty : Holds ⟨[], m.fragmentCnt, m.msgSeqnum⟩ m :=
    ⟨rfl, rfl, nodup_nil, fun _ h => absurd h not_mem_nil⟩
  obtain ⟨after, hafter, hholds, htracks, hlength⟩ := track_eq hempty hidx (hnone _) hpkt
  have hone : after.fragidxFragpayloadMap.length = 1 := hlength
  refine ⟨after, hafter, ⟨hholds, hseveral, ?_, by omega⟩, fun j => ?_⟩
  · exact length_pos_iff.1 (by omega)
  · rw [htracks]
    exact or_iff_left (hnone j)

end Packet

/-- A packet that has not arrived before, at a server that tracks fragments of messages. -/
theorem recvPacket_effect (stats : MsgFragStats) (hidx : fragmentIdx < m.fragmentCnt)
    (hpkt : pkt.bytes = m.packet fragmentIdx)
    (hstats : ∀ entry, stats m.sourceAddr = some entry → ∃ m', Tracked entry m' ∧
      (m'.msgSeqnum = m.msgSeqnum → m' = m))
    (hnew : ∀ entry, stats m.sourceAddr = some entry → entry.msgSeqnum = m.msgSeqnum →
      ¬ entry.Tracks fragmentIdx) :
    ∃ stats' out, recvPacket stats pkt = some (stats', out) ∧
      Effect stats m fragmentIdx stats' out := by
  rcases Nat.lt_or_ge 1 m.fragmentCnt with hseveral | hsingle
  · cases hentry : stats m.sourceAddr with
    | none =>
      obtain ⟨after, hafter, htracked, htracks⟩ := tracked_first hidx hpkt hseveral
      have hfirst : insertFrag ⟨[], 0, 0⟩ (m.fraghdr fragmentIdx) pkt =
          some after := hafter
      refine ⟨_, _, recvPacket_pending hidx hpkt hseveral (.inl ⟨hentry, rfl⟩) hfirst,
        .tracked after htracked (fun j => ?_) (by simp [hentry])⟩
      simp [htracks, hentry]
    | some entry =>
      obtain ⟨m', htracked, hsame⟩ := hstats entry hentry
      have hnonempty : ¬ entry.fragidxFragpayloadMap.length = 0 :=
        fun h => htracked.nonempty (eq_nil_of_length_eq_zero h)
      have hpending : entry.isLastFrag (m.fraghdr fragmentIdx) = false → ∀ after,
          entry.insertFrag (m.fraghdr fragmentIdx) pkt = some after →
          recvPacket stats pkt =
            some (Function.update stats m.sourceAddr (some after), .pending) :=
        fun hlast after => recvPacket_pending hidx hpkt hseveral (.inr ⟨hentry, hlast⟩)
      rcases Nat.lt_trichotomy m.msgSeqnum entry.msgSeqnum with hlt | heq | hgt
      · -- an older message is ignored
        have hlast : entry.isLastFrag (m.fraghdr fragmentIdx) = false := by
          simp [isLastFrag, Message.fraghdr, hlt.ne']
        have hinsert : entry.insertFrag (m.fraghdr fragmentIdx) pkt = some entry := by
          rw [insertFrag, if_neg hnonempty]
          exact if_pos hlt
        have hround := hpending hlast entry hinsert
        rw [← hentry, Function.update_eq_self] at hround
        exact ⟨_, _, hround, .older entry hseveral hentry hlt⟩
      · have hmsg : m' = m := hsame (htracked.msgSeqnum.symm.trans heq.symm)
        subst hmsg
        have hnotTracked := hnew entry hentry heq.symm
        by_cases hlength : entry.fragidxFragpayloadMap.length = m'.fragmentCnt - 1
        · refine ⟨_, _, recvPacket_last hidx hpkt hseveral hentry htracked.toHolds hnotTracked
            hlength, .last entry hseveral hentry heq.symm fun j hj => ?_⟩
          exact tracks_of_length htracked.toHolds hidx hnotTracked hlength hj
        · have hlast : entry.isLastFrag (m'.fraghdr fragmentIdx) = false := by
            simp [isLastFrag, htracked.fragcnt, hlength]
          obtain ⟨after, hafter, hholds, htracks, hcount⟩ :=
            track_eq htracked.toHolds hidx hnotTracked hpkt
          have hinsert : entry.insertFrag (m'.fraghdr fragmentIdx) pkt = some after := by
            rw [insertFrag, if_neg hnonempty, ← hafter]
            simp only [Message.fraghdr, heq, Nat.lt_irrefl, if_false, gt_iff_lt,
              require_bind htracked.fragcnt.symm]
          have hincomplete := htracked.incomplete
          refine ⟨_, _, hpending hlast after hinsert, .tracked after
            ⟨hholds, hseveral, length_pos_iff.1 (by omega), by omega⟩ (fun j => ?_) ?_⟩
          · rw [htracks]
            simp [hentry, heq.symm]
          · intro before hbefore
            rw [hentry] at hbefore
            cases hbefore
            exact heq.ge
      · -- a newer message takes the place of the tracked one
        have hlast : entry.isLastFrag (m.fraghdr fragmentIdx) = false := by
          simp [isLastFrag, Message.fraghdr, hgt.ne]
        obtain ⟨after, hafter, htracked', htracks⟩ := tracked_first hidx hpkt hseveral
        have hinsert : entry.insertFrag (m.fraghdr fragmentIdx) pkt = some after := by
          have hnotOlder : ¬ (m.fraghdr fragmentIdx).msgSeqnum < entry.msgSeqnum :=
            Nat.lt_asymm hgt
          have hnewer : (m.fraghdr fragmentIdx).msgSeqnum > entry.msgSeqnum := hgt
          rw [insertFrag, if_neg hnonempty, if_neg hnotOlder, if_pos hnewer]
          exact hafter
        refine ⟨_, _, hpending hlast after hinsert, .tracked after htracked' (fun j => ?_) ?_⟩
        · simp [htracks, hentry, hgt.ne]
        · intro before hbefore
          rw [hentry] at hbefore
          cases hbefore
          exact hgt.le
  · have hpos := getFragmentCnt_pos m.payload.length
    have hone : m.fragmentCnt = 1 := Nat.le_antisymm hsingle hpos
    exact ⟨_, _, recvPacket_single hidx hpkt hone, .single hone⟩

end Receive

end Covered.Network
