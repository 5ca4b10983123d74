import Mathlib.Data.List.Basic
import Covered.Lib.ByteStream

/-!
# Codecs and records of fields

A codec joins the three traversals of a type: the size of a value, its serializer and its
deserializer. They are separate functions, and `Delivers` says that they agree on a value: for some
bytes, as many as the size, every sink gets these bytes and every source that starts with them gives
the value that arrives. What arrives need not be what was sent, since a codec may leave out what its
receiver does not use.

A record is a dependent function over the names of its members. Its traversals go over a list of
entries; an entry may be absent, which the reader finds out from the members it has read before.
`delivers_record` is the one induction over such lists.
-/

set_option autoImplicit false

namespace Covered.Lib.RecordStream

open Lib.ByteStream List

/-- The three traversals of a type. -/
structure Codec (α : Type) where
  size : α → Nat
  write : {S : Type} → Sink S → α → StateT S Option Unit
  read : {S : Type} → Source S → StateT S Option α

namespace Codec

variable {α β : Type}

/-- The value `a` is sent as these bytes and arrives as `b`. -/
structure Wire (c : Codec α) (a b : α) (bytes : List UInt8) : Prop where
  length : bytes.length = c.size a
  emits : ∀ {S : Type} (sink : Sink S), Emits sink (c.write sink a) bytes
  parses : ∀ {S : Type} (source : Source S), Parses source (c.read source) b bytes

/-- The value `a` arrives as `b`. -/
def Delivers (c : Codec α) (a b : α) : Prop := ∃ bytes, c.Wire a b bytes

/-! ## Numbers -/

/-- A little-endian number; the reader may reject it. -/
def littleEndian (width : Nat) (toNat : α → Nat) (ofNat : Nat → Option α) : Codec α where
  size _ := width
  write sink a := sink.put (ByteStream.littleEndian width (toNat a))
  read source := source.getLittleEndian width >>= fun n => ofOption (ofNat n)

/-- A big-endian number; the reader may reject it. -/
def bigEndian (width : Nat) (toNat : α → Nat) (ofNat : Nat → Option α) : Codec α where
  size _ := width
  write sink a := sink.put (ByteStream.bigEndian width (toNat a))
  read source := source.getBigEndian width >>= fun n => ofOption (ofNat n)

section Numbers

variable {width : Nat} {toNat : α → Nat} {ofNat : Nat → Option α} {a b : α}

theorem delivers_littleEndian (hlt : toNat a < 256 ^ width) (hback : ofNat (toNat a) = some b) :
    (littleEndian width toNat ofNat).Delivers a b := by
  refine ⟨ByteStream.littleEndian width (toNat a), length_littleEndian .., ?_, ?_⟩
  · intro S sink
    exact emits_put sink _
  · intro S source
    exact (parses_getLittleEndian source hlt).thenOption hback

theorem delivers_bigEndian (hlt : toNat a < 256 ^ width) (hback : ofNat (toNat a) = some b) :
    (bigEndian width toNat ofNat).Delivers a b := by
  refine ⟨ByteStream.bigEndian width (toNat a), length_bigEndian .., ?_, ?_⟩
  · intro S sink
    exact emits_put sink _
  · intro S source
    exact (parses_getBigEndian source hlt).thenOption hback

end Numbers

/-- A byte. -/
def uint8 : Codec UInt8 := littleEndian 1 UInt8.toNat fun n => some (UInt8.ofNat n)

/-- A truth value in a byte. -/
def bool : Codec Bool := littleEndian 1 Bool.toNat fun n => some (decide (n ≠ 0))

/-- A 32-bit number in the byte order of the machine. -/
def uint32 : Codec UInt32 := littleEndian 4 UInt32.toNat fun n => some (UInt32.ofNat n)

/-- A 64-bit number in the byte order of the machine. -/
def uint64 : Codec UInt64 := littleEndian 8 UInt64.toNat fun n => some (UInt64.ofNat n)

/-- A 16-bit number in network byte order. -/
def bigEndian16 : Codec UInt16 := bigEndian 2 UInt16.toNat fun n => some (UInt16.ofNat n)

/-- A 32-bit number in network byte order. -/
def bigEndian32 : Codec UInt32 := bigEndian 4 UInt32.toNat fun n => some (UInt32.ofNat n)

theorem delivers_uint8 (n : UInt8) : uint8.Delivers n n := by
  refine delivers_littleEndian n.toNat_lt ?_
  rw [UInt8.ofNat_toNat]

theorem delivers_bool (b : Bool) : bool.Delivers b b := by
  cases b with
  | false => exact delivers_littleEndian (by decide) rfl
  | true => exact delivers_littleEndian (by decide) rfl

theorem delivers_uint32 (n : UInt32) : uint32.Delivers n n := by
  refine delivers_littleEndian n.toNat_lt ?_
  rw [UInt32.ofNat_toNat]

theorem delivers_uint64 (n : UInt64) : uint64.Delivers n n := by
  refine delivers_littleEndian n.toNat_lt ?_
  rw [UInt64.ofNat_toNat]

theorem delivers_bigEndian16 (n : UInt16) : bigEndian16.Delivers n n := by
  refine delivers_bigEndian n.toNat_lt ?_
  rw [UInt16.ofNat_toNat]

theorem delivers_bigEndian32 (n : UInt32) : bigEndian32.Delivers n n := by
  refine delivers_bigEndian n.toNat_lt ?_
  rw [UInt32.ofNat_toNat]

/-! ## Composition -/

/-- One value after the other. -/
def pair (c : Codec α) (d : Codec β) : Codec (α × β) where
  size a := c.size a.1 + d.size a.2
  write sink a := c.write sink a.1 >>= fun _ => d.write sink a.2
  read source := c.read source >>= fun a => d.read source >>= fun b => pure (a, b)

/-- Values of another type, which the reader may reject. -/
def convert (c : Codec α) (f : β → α) (g : α → Option β) : Codec β where
  size b := c.size (f b)
  write sink b := c.write sink (f b)
  read source := c.read source >>= fun a => ofOption (g a)

/-- The items of a list after their number. -/
def list (count : Codec UInt32) (c : Codec α) : Codec (List α) where
  size items := count.size (UInt32.ofNat items.length) + (items.map c.size).sum
  write sink items :=
    count.write sink (UInt32.ofNat items.length) >>= fun _ => writeMany (c.write sink) items
  read source := count.read source >>= fun n => readMany (c.read source) n.toNat

section Composition

variable {c : Codec α} {d : Codec β} {a a' : α} {b b' : β}

theorem Delivers.pair (hc : c.Delivers a a') (hd : d.Delivers b b') :
    (c.pair d).Delivers (a, b) (a', b') := by
  obtain ⟨bytes, hlength, hemits, hparses⟩ := hc
  obtain ⟨bytes', hlength', hemits', hparses'⟩ := hd
  refine ⟨bytes ++ bytes', ?_, ?_, ?_⟩
  · rw [length_append, hlength, hlength']
    rfl
  · intro S sink
    exact (hemits sink).andThen (hemits' sink)
  · intro S source
    exact (hparses source).andThen ((hparses' source).map (Prod.mk a'))

theorem Delivers.convert {f : β → α} {g : α → Option β} (hc : c.Delivers (f b) a')
    (hback : g a' = some b') : (c.convert f g).Delivers b b' := by
  obtain ⟨bytes, hlength, hemits, hparses⟩ := hc
  refine ⟨bytes, hlength, ?_, ?_⟩
  · intro S sink
    exact hemits sink
  · intro S source
    exact (hparses source).thenOption hback

theorem delivers_list {count : Codec UInt32} {items : List α}
    (hcount : ∀ n, count.Delivers n n) (hitems : ∀ a ∈ items, c.Delivers a a)
    (hlength : items.length < 2 ^ 32) : (list count c).Delivers items items := by
  obtain ⟨prefixBytes, hprefix, hemits, hparses⟩ := hcount (UInt32.ofNat items.length)
  choose! encode hwire using hitems
  refine ⟨prefixBytes ++ items.flatMap encode, ?_, ?_, ?_⟩
  · rw [length_append, hprefix, length_flatMap]
    have hmap : items.map (fun a => (encode a).length) = items.map c.size :=
      map_congr_left fun a ha => (hwire a ha).length
    rw [hmap]
    rfl
  · intro S sink
    exact (hemits sink).andThen (emits_writeMany fun a ha => (hwire a ha).emits sink)
  · intro S source
    have hcountRead : (UInt32.ofNat items.length).toNat = items.length :=
      UInt32.toNat_ofNat_of_lt' hlength
    have hmany : Parses source (readMany (c.read source) items.length) (items.map id)
        (items.flatMap encode) := parses_readMany fun a ha => (hwire a ha).parses source
    rw [map_id] at hmany
    refine (hparses source).andThen ?_
    rw [hcountRead]
    exact hmany

end Composition

end Codec

/-! ## Records -/

section Records

variable {ι : Type} [DecidableEq ι] {τ : ι → Type}

/-- A member of a record in a traversal, and whether it is there. -/
structure Entry (τ : ι → Type) where
  member : ι
  present : ((i : ι) → τ i) → Bool

/-- A member that is always there. -/
def always (i : ι) : Entry τ := ⟨i, fun _ => true⟩

variable (codec : (i : ι) → Codec (τ i))

/-- The size of the members that are there. -/
def recordSize (record : (i : ι) → τ i) : List (Entry τ) → Nat
  | [] => 0
  | e :: rest =>
    (if e.present record then (codec e.member).size (record e.member) else 0) +
      recordSize record rest

def writeRecord {S : Type} (sink : Sink S) (record : (i : ι) → τ i) :
    List (Entry τ) → StateT S Option Unit
  | [] => pure ()
  | e :: rest =>
    onlyIf (e.present record) ((codec e.member).write sink (record e.member)) >>= fun _ =>
      writeRecord sink record rest

/-- Read the members into a record. -/
def readRecord {S : Type} (source : Source S) :
    List (Entry τ) → ((i : ι) → τ i) → StateT S Option ((i : ι) → τ i)
  | [], record => pure record
  | e :: rest, record =>
    if e.present record then
      (codec e.member).read source >>= fun a =>
        readRecord source rest (Function.update record e.member a)
    else readRecord source rest record

/-- Records whose traversals are given by three lists; the reader starts with a fresh record. -/
def recordCodec (sizes writes reads : List (Entry τ)) (fresh : (i : ι) → τ i) :
    Codec ((i : ι) → τ i) where
  size record := recordSize codec record sizes
  write sink record := writeRecord codec sink record writes
  read source := readRecord codec source reads fresh

/-- Whether an entry is there follows from the members that do not come later. -/
def Settled (sent arrived : (i : ι) → τ i) : List (Entry τ) → Prop
  | [] => True
  | e :: rest =>
    (∀ record : (i : ι) → τ i,
      (∀ i ∉ (e :: rest).map Entry.member, record i = arrived i) →
        e.present record = e.present sent) ∧
      Settled sent arrived rest

omit [DecidableEq ι] in
theorem settled_always (sent arrived : (i : ι) → τ i) (members : List ι) :
    Settled sent arrived (members.map always) := by
  induction members with
  | nil => exact trivial
  | cons i rest ih => exact ⟨fun _ _ => rfl, ih⟩

variable {codec} {sent arrived : (i : ι) → τ i}

/-- The members arrive if each one does. Of the record into which they are read, the members that
are still to come do not matter. -/
theorem delivers_record {entries : List (Entry τ)} {fresh : (i : ι) → τ i}
    (hmembers : ∀ e ∈ entries, e.present sent = true →
      (codec e.member).Delivers (sent e.member) (arrived e.member))
    (hsettled : Settled sent arrived entries)
    (hfresh : ∀ i, (∀ e ∈ entries, e.present sent = true → e.member ≠ i) → fresh i = arrived i) :
    (recordCodec codec entries entries entries fresh).Delivers sent arrived := by
  induction entries generalizing fresh with
  | nil =>
    have hall : fresh = arrived := by
      funext i
      exact hfresh i fun e he => absurd he not_mem_nil
    subst hall
    refine ⟨[], rfl, ?_, ?_⟩
    · intro S sink
      exact emits_nothing sink
    · intro S source
      exact parses_pure source fresh
  | cons e rest ih =>
    obtain ⟨hpresent, hrest⟩ := hsettled
    have hreads : e.present fresh = e.present sent := by
      apply hpresent
      intro i hi
      apply hfresh
      intro e' he' _ heq
      exact hi (heq ▸ mem_map_of_mem he')
    have hlater : ∀ e' ∈ rest, e'.present sent = true →
        (codec e'.member).Delivers (sent e'.member) (arrived e'.member) :=
      fun e' he' => hmembers e' (mem_cons_of_mem e he')
    by_cases hthere : e.present sent = true
    · obtain ⟨bytes, hlength, hemits, hparses⟩ := hmembers e (mem_cons_self ..) hthere
      have hupdated : ∀ i, (∀ e' ∈ rest, e'.present sent = true → e'.member ≠ i) →
          Function.update fresh e.member (arrived e.member) i = arrived i := by
        intro i hi
        by_cases heq : i = e.member
        · subst heq
          exact Function.update_self ..
        · rw [Function.update_of_ne heq]
          apply hfresh
          intro e' he' hthere'
          rcases mem_cons.1 he' with rfl | he'
          · exact fun h => heq h.symm
          · exact hi e' he' hthere'
      obtain ⟨bytes', hlength', hemits', hparses'⟩ := ih hlater hrest hupdated
      refine ⟨bytes ++ bytes', ?_, ?_, ?_⟩
      · rw [length_append, hlength, hlength']
        show _ = (if e.present sent = true then _ else _) + _
        rw [if_pos hthere]
        rfl
      · intro S sink
        refine Emits.andThen ?_ (hemits' sink)
        rw [onlyIf, if_pos hthere]
        exact hemits sink
      · intro S source
        show Parses source (if e.present fresh = true then _ else _) _ _
        rw [if_pos (hreads.trans hthere)]
        exact (hparses source).andThen (hparses' source)
    · have hsame : ∀ i, (∀ e' ∈ rest, e'.present sent = true → e'.member ≠ i) →
          fresh i = arrived i := by
        intro i hi
        apply hfresh
        intro e' he' hthere'
        rcases mem_cons.1 he' with rfl | he'
        · exact absurd hthere' hthere
        · exact hi e' he' hthere'
      obtain ⟨bytes, hlength, hemits, hparses⟩ := ih hlater hrest hsame
      refine ⟨bytes, ?_, ?_, ?_⟩
      · rw [hlength]
        show _ = (if e.present sent = true then _ else _) + _
        rw [if_neg hthere, Nat.zero_add]
        rfl
      · intro S sink
        have hboth : Emits sink (writeRecord codec sink sent (e :: rest)) ([] ++ bytes) := by
          refine Emits.andThen ?_ (hemits sink)
          rw [onlyIf, if_neg hthere]
          exact emits_nothing sink
        exact hboth
      · intro S source
        show Parses source (if e.present fresh = true then _ else _) _ _
        rw [if_neg (hreads ▸ hthere)]
        exact hparses source

/-- A record of which every member is sent. -/
theorem delivers_members {members : List ι} {fresh : (i : ι) → τ i}
    (hall : ∀ i, i ∈ members) (hmembers : ∀ i, (codec i).Delivers (sent i) (arrived i)) :
    (recordCodec codec (members.map always) (members.map always) (members.map always)
      fresh).Delivers sent arrived := by
  refine delivers_record ?_ (settled_always sent arrived members) ?_
  · intro e _ _
    exact hmembers e.member
  · intro i hi
    exact absurd rfl (hi (always i) (mem_map_of_mem (hall i)) rfl)

end Records

end Covered.Lib.RecordStream
