import Covered.Victim.WireFormat

/-!
# Round trip of victim syncsets through messages and files

An edge sends complete syncsets and syncsets that `compress` made of two complete ones. In these
every field that the wire format leaves out has its default, with two exceptions: a stale cacheinfo
keeps the values of the victim that it announces to be gone, and the reward of the redirected
requests is in no message. `roundTrip` is that a receiver reads the same syncset up to these two,
from a payload or from a file, and that writing and reading take exactly the counted bytes.
-/

set_option autoImplicit false

namespace Covered.Victim

open Common Cooperation Lib Lib.Checked Lib.ByteStream Lib.SingleFloat

/-! ## Cacheinfos -/

namespace VictimCacheinfo

/-- Every deduplicated field has its default. -/
structure Blank (v : VictimCacheinfo) : Prop where
  objectSize : Has v.dedupBitmap objectSizeDedupMask → v.objectSize = 0
  localCachedPopularity :
    Has v.dedupBitmap localCachedPopularityDedupMask → v.localCachedPopularity = 0
  redirectedCachedPopularity :
    Has v.dedupBitmap redirectedCachedPopularityDedupMask → v.redirectedCachedPopularity = 0
  localReward : Has v.dedupBitmap localRewardDedupMask → v.localReward = 0

variable {v current : VictimCacheinfo}

theorem blank_of_isComplete (h : v.isComplete = true) : v.Blank := by
  have hbitmap := bitmap_of_isComplete h
  constructor <;> intro hhas <;> rw [hbitmap] at hhas <;> exact absurd hhas (by decide)

/-- A field that is deduplicated is blanked, and the others keep their bits. -/
theorem has_dedup : ∀ bitmap : BitVec 6, LegalBitmap bitmap →
    (Has (bitmap ||| objectSizeDedupMask) localCachedPopularityDedupMask ↔
      Has bitmap localCachedPopularityDedupMask) ∧
    (Has (bitmap ||| objectSizeDedupMask) redirectedCachedPopularityDedupMask ↔
      Has bitmap redirectedCachedPopularityDedupMask) ∧
    (Has (bitmap ||| objectSizeDedupMask) localRewardDedupMask ↔
      Has bitmap localRewardDedupMask) ∧
    (Has (bitmap ||| localCachedPopularityDedupMask) objectSizeDedupMask ↔
      Has bitmap objectSizeDedupMask) ∧
    (Has (bitmap ||| localCachedPopularityDedupMask) redirectedCachedPopularityDedupMask ↔
      Has bitmap redirectedCachedPopularityDedupMask) ∧
    (Has (bitmap ||| localCachedPopularityDedupMask) localRewardDedupMask ↔
      Has bitmap localRewardDedupMask) ∧
    (Has (bitmap ||| redirectedCachedPopularityDedupMask) objectSizeDedupMask ↔
      Has bitmap objectSizeDedupMask) ∧
    (Has (bitmap ||| redirectedCachedPopularityDedupMask) localCachedPopularityDedupMask ↔
      Has bitmap localCachedPopularityDedupMask) ∧
    (Has (bitmap ||| redirectedCachedPopularityDedupMask) localRewardDedupMask ↔
      Has bitmap localRewardDedupMask) ∧
    (Has (bitmap ||| localRewardDedupMask) objectSizeDedupMask ↔
      Has bitmap objectSizeDedupMask) ∧
    (Has (bitmap ||| localRewardDedupMask) localCachedPopularityDedupMask ↔
      Has bitmap localCachedPopularityDedupMask) ∧
    (Has (bitmap ||| localRewardDedupMask) redirectedCachedPopularityDedupMask ↔
      Has bitmap redirectedCachedPopularityDedupMask) := by
  decide +kernel

section Blank

variable {v : VictimCacheinfo}

theorem Blank.dedupObjectSize (h : v.Blank) : v.dedupObjectSize.Blank := by
  obtain ⟨hlocal, hredirected, hreward, -⟩ := has_dedup v.dedupBitmap v.bitmap_wf
  exact ⟨fun _ => rfl, fun hhas => h.localCachedPopularity (hlocal.1 hhas),
    fun hhas => h.redirectedCachedPopularity (hredirected.1 hhas),
    fun hhas => h.localReward (hreward.1 hhas)⟩

theorem Blank.dedupLocalCachedPopularity (h : v.Blank) : v.dedupLocalCachedPopularity.Blank := by
  obtain ⟨-, -, -, hsize, hredirected, hreward, -⟩ := has_dedup v.dedupBitmap v.bitmap_wf
  exact ⟨fun hhas => h.objectSize (hsize.1 hhas), fun _ => rfl,
    fun hhas => h.redirectedCachedPopularity (hredirected.1 hhas),
    fun hhas => h.localReward (hreward.1 hhas)⟩

theorem Blank.dedupRedirectedCachedPopularity (h : v.Blank) :
    v.dedupRedirectedCachedPopularity.Blank := by
  obtain ⟨-, -, -, -, -, -, hsize, hlocal, hreward, -⟩ := has_dedup v.dedupBitmap v.bitmap_wf
  exact ⟨fun hhas => h.objectSize (hsize.1 hhas),
    fun hhas => h.localCachedPopularity (hlocal.1 hhas), fun _ => rfl,
    fun hhas => h.localReward (hreward.1 hhas)⟩

theorem Blank.dedupLocalReward (h : v.Blank) : v.dedupLocalReward.Blank := by
  obtain ⟨-, -, -, -, -, -, -, -, -, hsize, hlocal, hredirected⟩ :=
    has_dedup v.dedupBitmap v.bitmap_wf
  exact ⟨fun hhas => h.objectSize (hsize.1 hhas),
    fun hhas => h.localCachedPopularity (hlocal.1 hhas),
    fun hhas => h.redirectedCachedPopularity (hredirected.1 hhas), fun _ => rfl⟩

end Blank

theorem blank_dedupFields (h : current.isComplete = true)
    (prev : VictimCacheinfo) : (dedupFields current prev).Blank := by
  have honly : ∀ {c : Prop} [Decidable c] {v : VictimCacheinfo}
      {f : VictimCacheinfo → VictimCacheinfo}, v.Blank → (v.Blank → (f v).Blank) →
        (if c then f v else v).Blank := by
    intro c _ v f hv hf
    split
    · exact hf hv
    · exact hv
  rw [dedupFields]
  refine honly ?_ Blank.dedupLocalReward
  refine honly ?_ Blank.dedupRedirectedCachedPopularity
  refine honly ?_ Blank.dedupLocalCachedPopularity
  exact honly (blank_of_isComplete h) Blank.dedupObjectSize

theorem blank_dedup {prev d : VictimCacheinfo} (h : dedup current prev = some d) :
    d.Blank := by
  simp only [dedup, require_bind_iff, pure_eq_some_iff] at h
  obtain ⟨hcurrent, -, rfl⟩ := h
  split
  · exact blank_dedupFields hcurrent prev
  · exact blank_of_isComplete hcurrent

/-- The receiver `r` knows of the victim what the sender `v` says about it. Of a stale victim the
sender says nothing but the key. -/
structure Delivers (v r : VictimCacheinfo) : Prop where
  dedupBitmap : r.dedupBitmap = v.dedupBitmap
  key : r.key = v.key
  beaconEdgeidx : r.beaconEdgeidx = v.beaconEdgeidx
  fields : v.isStale = false → r.objectSize = v.objectSize ∧
    r.localCachedPopularity = v.localCachedPopularity ∧
    r.redirectedCachedPopularity = v.redirectedCachedPopularity ∧ r.localReward = v.localReward

theorem delivers_received (h : v.isStale = false → v.Blank) :
    v.Delivers v.received := by
  refine ⟨rfl, rfl, rfl, fun hstale => ?_⟩
  have hblank := h hstale
  -- a field is sent, or it has its default
  have hfield : ∀ {α : Type} {a default : α} {c : Prop} [Decidable c], (c → a = default) →
      (if ¬ c then some a else none).getD default = a := by
    intro α a default c _ heq
    by_cases hc : c
    · rw [if_neg (not_not.2 hc), Option.getD_none, heq hc]
    · rw [if_pos hc, Option.getD_some]
  exact ⟨hfield hblank.objectSize, hfield hblank.localCachedPopularity,
    hfield hblank.redirectedCachedPopularity, hfield hblank.localReward⟩

end VictimCacheinfo

/-! ## Syncsets that are sent -/

namespace VictimSyncset

/-- A complete syncset with complete members, as the constructors and setters leave it. -/
structure Full (s : VictimSyncset) : Prop extends s.AllComplete where
  cacheMarginDeltaBytes : s.cacheMarginDeltaBytes = 0

/-- The syncset is complete, or compressed from two complete ones. -/
def Sendable (s : VictimSyncset) : Prop :=
  s.Full ∨ ∃ current prev : VictimSyncset, current.Full ∧ prev.Full ∧ compress current prev = some s

/-- What is not sent has its default, up to the values of stale victims. -/
structure Canonical (s : VictimSyncset) : Prop where
  bytes : s.PartCompressed .cacheMarginBytes → s.cacheMarginBytes = 0
  delta : ¬ s.PartCompressed .cacheMarginBytes → s.cacheMarginDeltaBytes = 0
  victims : ∀ v ∈ s.localSyncedVictims, v.isStale = false → v.Blank
  dirinfos : ∀ pair ∈ s.localBeaconedVictims,
    pair.2.isComplete = false → pair.2.dirinfoSet = []

variable {s : VictimSyncset}

theorem Full.canonical (h : s.Full) : s.Canonical where
  bytes hpart := absurd hpart (h.toAllComplete.not_part _)
  delta _ := h.cacheMarginDeltaBytes
  victims v hv _ := VictimCacheinfo.blank_of_isComplete (h.victims v hv)
  dirinfos pair hpair hincomplete := by
    rw [h.dirinfos pair hpair] at hincomplete
    cases hincomplete

theorem blank_compressVictims {current prev messages : List VictimCacheinfo}
    (h : compressVictims prev current = some messages) :
    ∀ m ∈ messages, m.Blank := by
  refine KeyedList.forall_mem_collect _ (fun v m hmessage => ?_) h
  rw [compressVictim] at hmessage
  split at hmessage
  · simp only [Option.bind_eq_bind, require_bind_eq_some_iff, Option.pure_def,
      Option.some.injEq] at hmessage
    obtain ⟨hcomplete, rfl⟩ := hmessage
    exact VictimCacheinfo.blank_of_isComplete hcomplete
  · simp only [bind_eq_some_iff, pure_eq_some_iff] at hmessage
    obtain ⟨d, hd, hmessage⟩ := hmessage
    split at hmessage
    · cases hmessage
    · cases hmessage
      exact VictimCacheinfo.blank_dedup hd

theorem emptied_setDelta (set : DirinfoSet) (newDelta staleDelta : List DirectoryInfo) :
    (set.setDeltaDirinfoSetForCompress newDelta staleDelta).dirinfoSet = [] := by
  have hnew : (set.setNewDelta newDelta).dirinfoSet = [] := by
    rw [DirinfoSet.setNewDelta]
    split <;> rfl
  rw [DirinfoSet.setDeltaDirinfoSetForCompress]
  split
  · exact hnew
  · exact hnew

theorem emptied_compress {current prev d : DirinfoSet}
    (h : DirinfoSet.compress current prev = some d) (hincomplete : d.isComplete = false) :
    d.dirinfoSet = [] := by
  simp only [DirinfoSet.compress, bind_eq_some_iff, require_eq_some_iff, pure_eq_some_iff] at h
  obtain ⟨-, hcurrent, -, -, currentList, -, prevList, -, rfl⟩ := h
  -- the current set is complete, so an incomplete result is the one with the deltas
  have honly : ∀ {c : Prop} [Decidable c] {compressed : DirinfoSet},
      (compressed.isComplete = false → compressed.dirinfoSet = []) →
        (if c then compressed else current).isComplete = false →
          (if c then compressed else current).dirinfoSet = [] := by
    intro c _ compressed hcompressed hincomplete
    split at hincomplete
    · next hc =>
      rw [if_pos hc]
      exact hcompressed hincomplete
    · rw [hcurrent] at hincomplete
      cases hincomplete
  refine honly (fun hdelta => ?_) hincomplete
  split at hdelta
  · rw [hcurrent] at hdelta
    cases hdelta
  · next hlarger =>
    rw [if_neg hlarger]
    exact emptied_setDelta _ _ _

theorem emptied_compressDirinfos {current prev messages : List (Key × DirinfoSet)}
    (h : compressDirinfos prev current = some messages) :
    ∀ m ∈ messages, m.2.isComplete = false → m.2.dirinfoSet = [] := by
  refine KeyedList.forall_mem_collect _ (fun pair m hmessage => ?_) h
  intro hincomplete
  rw [compressDirinfo] at hmessage
  split at hmessage
  · simp only [Option.bind_eq_bind, require_bind_eq_some_iff, Option.pure_def,
      Option.some.injEq] at hmessage
    obtain ⟨hcomplete, rfl⟩ := hmessage
    rw [hcomplete] at hincomplete
    cases hincomplete
  · simp only [bind_eq_some_iff, pure_eq_some_iff] at hmessage
    obtain ⟨d, hd, hmessage⟩ := hmessage
    split at hmessage
    · cases hmessage
    · cases hmessage
      exact emptied_compress hd hincomplete

section Compress

variable {s t current prev : VictimSyncset}

theorem Canonical.compressCacheMarginBytes (h : s.Canonical) :
    (compressCacheMarginBytes s current prev).Canonical := by
  rw [VictimSyncset.compressCacheMarginBytes]
  split
  · next delta _ =>
    have hpart : (s.setCacheMarginDeltaBytes delta).PartCompressed .cacheMarginBytes := by simp
    exact ⟨fun _ => rfl, fun hnot => absurd hpart hnot, h.victims, h.dirinfos⟩
  · exact h

theorem Canonical.compressLocalSyncedVictims (h : s.Canonical)
    (hcompress : compressLocalSyncedVictims s current prev = some t) : t.Canonical := by
  simp only [VictimSyncset.compressLocalSyncedVictims, bind_eq_some_iff, require_eq_some_iff,
    pure_eq_some_iff] at hcompress
  obtain ⟨-, -, -, -, messages, hmessages, rfl⟩ := hcompress
  split
  · exact h
  · refine ⟨fun hpart => h.bytes (by simpa using hpart),
      fun hpart => h.delta (by simpa using hpart),
      ?_, h.dirinfos⟩
    intro v hv hstale
    rcases List.mem_append.1 hv with hv | hv
    · exact blank_compressVictims hmessages v hv
    · rw [(isStale_of_mem_staleVictims hv).1] at hstale
      cases hstale

theorem Canonical.compressLocalBeaconedVictims (h : s.Canonical)
    (hcompress : compressLocalBeaconedVictims s current prev = some t) : t.Canonical := by
  simp only [VictimSyncset.compressLocalBeaconedVictims, bind_eq_some_iff, require_eq_some_iff,
    pure_eq_some_iff] at hcompress
  obtain ⟨-, -, -, -, messages, hmessages, rfl⟩ := hcompress
  split
  · exact h
  · exact ⟨fun hpart => h.bytes (by simpa using hpart), fun hpart => h.delta (by simpa using hpart),
      h.victims, emptied_compressDirinfos hmessages⟩

theorem canonical_compress (hcurrent : current.Full) (h : compress current prev = some s) :
    s.Canonical := by
  simp only [compress, bind_eq_some_iff, require_eq_some_iff, pure_eq_some_iff] at h
  obtain ⟨-, -, -, -, next, -, -, -, s₂, hs₂, s₃, hs₃, rfl⟩ := h
  split
  · have hmargin : (compressCacheMarginBytes current current prev).Canonical :=
      hcurrent.canonical.compressCacheMarginBytes
    exact (hmargin.compressLocalSyncedVictims hs₂).compressLocalBeaconedVictims hs₃
  · exact hcurrent.canonical

theorem Sendable.canonical (h : s.Sendable) : s.Canonical := by
  rcases h with hfull | ⟨current, prev, hcurrent, -, hcompress⟩
  · exact hfull.canonical
  · exact canonical_compress hcurrent hcompress

end Compress

/-- The receiver `r` knows what the sender `s` says. -/
structure Delivers (s r : VictimSyncset) : Prop where
  compressedBitmap : r.compressedBitmap = s.compressedBitmap
  seqnum : r.seqnum = s.seqnum
  isEnforceComplete : r.isEnforceComplete = s.isEnforceComplete
  cacheMarginBytes : r.cacheMarginBytes = s.cacheMarginBytes
  cacheMarginDeltaBytes : r.cacheMarginDeltaBytes = s.cacheMarginDeltaBytes
  victims : List.Forall₂ VictimCacheinfo.Delivers s.localSyncedVictims r.localSyncedVictims
  dirinfos : r.localBeaconedVictims = s.localBeaconedVictims

theorem delivers_received (h : s.Canonical) : s.Delivers s.received := by
  refine ⟨rfl, rfl, rfl, ?_, ?_, ?_, ?_⟩
  · by_cases hpart : s.PartCompressed .cacheMarginBytes
    · exact (if_pos hpart).trans (h.bytes hpart).symm
    · exact if_neg hpart
  · by_cases hpart : s.PartCompressed .cacheMarginBytes
    · exact if_pos hpart
    · exact (if_neg hpart).trans (h.delta hpart).symm
  · refine List.forall₂_map_right_iff.2 (List.forall₂_same.2 fun v hv => ?_)
    exact VictimCacheinfo.delivers_received (h.victims v hv)
  · refine (List.map_congr_left fun pair hpair => ?_).trans (List.map_id _)
    have hset : pair.2.received = pair.2 := DirinfoSet.received_eq_self (h.dirinfos pair hpair)
    rw [hset]
    rfl

/-! ## Messages and files -/

/-- Write to a message payload; the answer has the size of what was written. -/
def serialize (s : VictimSyncset) (msgPayload : DynamicArray) (position : Nat) :
    Option (DynamicArray × Nat) := do
  let (_, (array, size)) ← s.serializeTo DynamicArray.sink (msgPayload, position)
  return (array, size - position)

/-- Append to a file. -/
def serializeToFile (s : VictimSyncset) (file : List UInt8) : Option (List UInt8 × Nat) := do
  let (_, (written, size)) ← s.serializeTo File.sink (file, 0)
  return (written, size)

/-- Read from a message payload; the answer has the size of what was read. -/
def deserialize (msgPayload : DynamicArray) (position : Nat) : Option (VictimSyncset × Nat) :=
  if h : position ≤ msgPayload.bytes.length then do
    let (s, reader) ← deserializeFrom DynamicArray.source ⟨msgPayload, position, h⟩
    return (s, reader.size - position)
  else none

/-- Read from a file, of which the rest remains. -/
def deserializeFromFile (file : List UInt8) : Option ((VictimSyncset × Nat) × List UInt8) := do
  let (s, (rest, size)) ← deserializeFrom File.source (file, 0)
  return ((s, size), rest)

theorem serialize_eq (s : VictimSyncset) {msgPayload : DynamicArray} {position : Nat}
    (hposition : position ≤ msgPayload.bytes.length)
    (hcapacity : position + s.getVictimSyncsetPayloadSize ≤ msgPayload.capacity) :
    ∃ array rest, s.serialize msgPayload position = some (array, s.getVictimSyncsetPayloadSize) ∧
      array.bytes = msgPayload.bytes.take position ++ (s.wire ++ rest) := by
  rw [← length_wire] at hcapacity ⊢
  obtain ⟨⟨array, size⟩, hserialize, hwritten, hsize, -⟩ :=
    s.emits DynamicArray.sink (msgPayload, position)
      (msgPayload.capacity - (position + s.wire.length))
      ⟨hposition, by rw [← Nat.add_assoc, Nat.add_sub_cancel' hcapacity]⟩
  refine ⟨array, array.bytes.drop size, ?_, ?_⟩
  · have hdiff : size - position = s.wire.length := by
      rw [show size = position + s.wire.length from hsize, Nat.add_sub_cancel_left]
    simp only [serialize, hserialize, some_bind, Option.pure_def, hdiff]
  · have hprefix : array.bytes.take size = msgPayload.bytes.take position ++ s.wire := hwritten
    rw [← List.append_assoc, ← hprefix, List.take_append_drop]

theorem serializeToFile_eq (s : VictimSyncset) (file : List UInt8) :
    s.serializeToFile file = some (file ++ s.wire, s.getVictimSyncsetPayloadSize) := by
  rw [← length_wire]
  obtain ⟨⟨written, size⟩, hserialize, hwritten, hsize, -⟩ := s.emits File.sink (file, 0) 0 trivial
  have hbytes : written = file ++ s.wire := hwritten
  have hcount : size = 0 + s.wire.length := hsize
  rw [Nat.zero_add] at hcount
  simp only [serializeToFile, hserialize, some_bind, Option.pure_def, hbytes, hcount]

section Read

variable {s : VictimSyncset}

theorem deserialize_eq (hrange : s.InRange) {msgPayload : DynamicArray} {front rest : List UInt8}
    (hbytes : msgPayload.bytes = front ++ (s.wire ++ rest)) :
    deserialize msgPayload front.length = some (s.received, s.getVictimSyncsetPayloadSize) := by
  rw [← length_wire]
  have hwithin : front.length ≤ msgPayload.bytes.length := by
    rw [hbytes, List.length_append]
    exact Nat.le_add_right ..
  have hremaining : DynamicArray.source.remaining ⟨msgPayload, front.length, hwithin⟩ =
      s.wire ++ rest := by
    show msgPayload.bytes.drop front.length = _
    rw [hbytes, List.drop_left]
  obtain ⟨reader, hread, -, hsize⟩ := parses DynamicArray.source hrange _ _ hremaining
  have hdiff : reader.size - front.length = s.wire.length := by
    rw [show reader.size = front.length + s.wire.length from hsize, Nat.add_sub_cancel_left]
  rw [deserialize, dif_pos hwithin]
  simp only [hread, some_bind, Option.pure_def, hdiff]

theorem deserializeFromFile_eq (hrange : s.InRange) (rest : List UInt8) :
    deserializeFromFile (s.wire ++ rest) =
      some ((s.received, s.getVictimSyncsetPayloadSize), rest) := by
  rw [← length_wire]
  obtain ⟨⟨left, size⟩, hread, hleft, hsize⟩ :=
    parses File.source hrange (s.wire ++ rest, 0) rest rfl
  have hrest : left = rest := hleft
  have hcount : size = 0 + s.wire.length := hsize
  rw [Nat.zero_add] at hcount
  simp only [deserializeFromFile, hread, some_bind, Option.pure_def, hrest, hcount]

end Read

/-- A syncset that is sent is written as the same bytes to a payload and to a file, as many as are
counted, and from these bytes both variants read what the sender said. -/
theorem roundTrip {s : VictimSyncset} (h : s.Sendable) (hrange : s.InRange) :
    ∃ (bytes : List UInt8) (r : VictimSyncset),
      bytes.length = s.getVictimSyncsetPayloadSize ∧ s.Delivers r ∧
      (∀ (msgPayload : DynamicArray) (position : Nat), position ≤ msgPayload.bytes.length →
        position + s.getVictimSyncsetPayloadSize ≤ msgPayload.capacity →
        ∃ array rest,
          s.serialize msgPayload position = some (array, s.getVictimSyncsetPayloadSize) ∧
          array.bytes = msgPayload.bytes.take position ++ (bytes ++ rest)) ∧
      (∀ file, s.serializeToFile file = some (file ++ bytes, s.getVictimSyncsetPayloadSize)) ∧
      (∀ (msgPayload : DynamicArray) (front rest : List UInt8),
        msgPayload.bytes = front ++ (bytes ++ rest) →
        deserialize msgPayload front.length = some (r, s.getVictimSyncsetPayloadSize)) ∧
      ∀ rest, deserializeFromFile (bytes ++ rest) =
        some ((r, s.getVictimSyncsetPayloadSize), rest) := by
  refine ⟨s.wire, s.received, s.length_wire, delivers_received h.canonical, ?_, ?_, ?_, ?_⟩
  · exact fun msgPayload position hposition hcapacity => s.serialize_eq hposition hcapacity
  · exact s.serializeToFile_eq
  · exact fun msgPayload front rest hbytes => deserialize_eq hrange hbytes
  · exact deserializeFromFile_eq hrange

/-- A victim of two bytes with the given key. -/
def keyed (keystr : List UInt8) : VictimCacheinfo := VictimCacheinfo.create ⟨keystr⟩ 2 1 0 1 0

/-- Two victims, of which the second one is gone in the next syncset. -/
def twoVictims : VictimSyncset := create 0 false 5 [keyed [7], keyed [8]] []

def oneVictimLeft : VictimSyncset := create 1 false 6 [keyed [7]] []

theorem full_twoVictims : twoVictims.Full where
  complete := by decide
  victims := by decide +kernel
  dirinfos := by decide
  cacheMarginDeltaBytes := rfl

theorem full_oneVictimLeft : oneVictimLeft.Full where
  complete := by decide
  victims := by decide +kernel
  dirinfos := by decide
  cacheMarginDeltaBytes := rfl

/-- The next syncset is sent as a delta of the free bytes and the key of the victim that is gone. -/
theorem compress_oneVictimLeft : ∃ s, compress oneVictimLeft twoVictims = some s ∧ s.InRange ∧
    s.localSyncedVictims = [(keyed [8]).markStale] ∧ s.getVictimSyncsetPayloadSize = 28 := by
  have hany : (compress oneVictimLeft twoVictims).any (fun s =>
      decide (s.localSyncedVictims = [(keyed [8]).markStale] ∧ s.localBeaconedVictims = [] ∧
        s.seqnum < 2 ^ 64 ∧ s.cacheMarginBytes < 2 ^ 64 ∧
        (-2 ^ 31 ≤ s.cacheMarginDeltaBytes ∧ s.cacheMarginDeltaBytes < 2 ^ 31) ∧
        s.getVictimSyncsetPayloadSize = 28)) = true := by
    decide +kernel
  obtain ⟨s, hs, hfields⟩ := (Option.any_eq_true ..).1 hany
  rw [decide_eq_true_eq] at hfields
  obtain ⟨hvictims, hdirinfos, hseqnum, hbytes, hdelta, hsize⟩ := hfields
  refine ⟨s, hs, ⟨hseqnum, hbytes, hdelta, ?_, ?_, by omega⟩, hvictims, hsize⟩
  · have hone : IsFloat 1 := ⟨0x3f800000, by decide, by decide +kernel⟩
    rw [hvictims]
    intro v hv
    rw [List.mem_singleton] at hv
    rw [hv]
    exact ⟨by decide, by decide, hone, isFloat_zero, hone⟩
  · rw [hdirinfos]
    exact fun pair hpair => absurd hpair List.not_mem_nil

theorem sendable_of_compress (h : compress oneVictimLeft twoVictims = some s) :
    s.Sendable :=
  .inr ⟨oneVictimLeft, twoVictims, full_oneVictimLeft, full_twoVictims, h⟩

/-- The delta is written to a file and read back. -/
theorem roundTrip_oneVictimLeft :
    ∃ (s r : VictimSyncset) (bytes : List UInt8), compress oneVictimLeft twoVictims = some s ∧
      bytes.length = 28 ∧ s.serializeToFile [] = some (bytes, 28) ∧
      deserializeFromFile bytes = some ((r, 28), []) ∧ s.Delivers r := by
  obtain ⟨s, hs, hrange, -, hsize⟩ := compress_oneVictimLeft
  obtain ⟨bytes, r, hlength, hdelivers, -, hwrite, -, hread⟩ :=
    roundTrip (sendable_of_compress hs) hrange
  rw [hsize] at hlength hwrite hread
  have hrest := hread []
  rw [List.append_nil] at hrest
  exact ⟨s, r, bytes, hs, hlength, hwrite [], hrest, hdelivers⟩

/-- An empty payload of a hundred bytes. -/
def emptyPayload : DynamicArray := ⟨[], 100, by decide, by decide⟩

/-- The victim that is gone keeps its size in the syncset that is sent and not in the one that is
read. -/
theorem roundTrip_staleVictim :
    ∃ (s r : VictimSyncset) (array : DynamicArray), s.Sendable ∧ s.InRange ∧
      s.serialize emptyPayload 0 = some (array, 28) ∧ deserialize array 0 = some (r, 28) ∧
      s.localSyncedVictims.map VictimCacheinfo.objectSize = [2] ∧
      r.localSyncedVictims.map VictimCacheinfo.objectSize = [0] := by
  obtain ⟨s, hs, hrange, hvictims, hsize⟩ := compress_oneVictimLeft
  have hcapacity : 0 + s.getVictimSyncsetPayloadSize ≤ emptyPayload.capacity := by
    rw [hsize]
    decide
  obtain ⟨array, rest, hwrite, hbytes⟩ := s.serialize_eq (Nat.zero_le _) hcapacity
  have hread : deserialize array 0 = some (s.received, s.getVictimSyncsetPayloadSize) :=
    deserialize_eq hrange hbytes
  rw [hsize] at hwrite hread
  refine ⟨s, s.received, array, sendable_of_compress hs, hrange, hwrite, hread, ?_, ?_⟩
  · rw [hvictims]
    rfl
  · have hreceived : s.received.localSyncedVictims = [(keyed [8]).markStale.received] := by
      rw [received]
      dsimp only
      rw [hvictims]
      rfl
    rw [hreceived]
    decide +kernel

end VictimSyncset

end Covered.Victim
