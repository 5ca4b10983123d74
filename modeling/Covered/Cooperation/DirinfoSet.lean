import Mathlib.Data.List.Dedup
import Covered.Common.Util

/-!
# Sets of directory infos and their delta compression

A `DirinfoSet` is either complete, a list of directory infos, or compressed: the infos that are
new and the infos that are stale against a previous complete set. The bitmap says which of the two
forms it is and which of the two deltas are present.

`compress` takes the delta form when it is shorter; `recover` rebuilds the complete set from the
previous one. `recover_compress` is the round trip: when `compress` chose the delta form and it is
not empty, `recover` gives a complete set with the infos of the current set, as a set.

The bitmap has three bits here. The upper five bits of the source's byte are set only in the bitmap
of a default-constructed set, which is replaced before it is used.
-/

set_option autoImplicit false

namespace Covered.Cooperation

open Common Lib.Checked List

/-- Content directory information: the edge node that caches the object. -/
structure DirectoryInfo where
  targetEdgeIdx : Nat := 0
deriving DecidableEq, Repr

/-- Bytes of a directory info in a message. -/
def DirectoryInfo.getDirectoryInfoPayloadSize (_ : DirectoryInfo) : Nat := 4

/-- Bytes of a directory info counted for the cache capacity. -/
def DirectoryInfo.getSizeForCapacity (_ : DirectoryInfo) : Nat := 4

namespace DirinfoSet

def completeBitmap : BitVec 3 := 0b000#3
def deltaMask : BitVec 3 := 0b001#3
def newDirinfoSetDeltaMask : BitVec 3 := 0b010#3 ||| deltaMask
def staleDirinfoSetDeltaMask : BitVec 3 := 0b100#3 ||| deltaMask

/-- The bitmap has the new delta. -/
def hasNewDelta (bitmap : BitVec 3) : Prop :=
  bitmap &&& newDirinfoSetDeltaMask = newDirinfoSetDeltaMask

/-- The bitmap has the stale delta. -/
def hasStaleDelta (bitmap : BitVec 3) : Prop :=
  bitmap &&& staleDirinfoSetDeltaMask = staleDirinfoSetDeltaMask

instance (bitmap : BitVec 3) : Decidable (hasNewDelta bitmap) :=
  inferInstanceAs (Decidable (_ = _))

instance (bitmap : BitVec 3) : Decidable (hasStaleDelta bitmap) :=
  inferInstanceAs (Decidable (_ = _))

end DirinfoSet

open DirinfoSet in
/-- Complete or compressed set of directory infos. A delta list is present iff its bit is set, so
the source's assertions on the sizes of the delta lists hold by construction. -/
structure DirinfoSet where
  deltaBitmap : BitVec 3
  dirinfoSet : List DirectoryInfo
  newDirinfoDeltaSet : List DirectoryInfo
  staleDirinfoDeltaSet : List DirectoryInfo
  bitmap_wf : deltaBitmap &&& 0b110#3 ≠ 0 → deltaBitmap &&& deltaMask = deltaMask
  new_iff : hasNewDelta deltaBitmap ↔ newDirinfoDeltaSet ≠ []
  stale_iff : hasStaleDelta deltaBitmap ↔ staleDirinfoDeltaSet ≠ []
deriving DecidableEq

namespace DirinfoSet

/-- The complete set with the given infos. -/
def ofList (dirinfos : List DirectoryInfo) : DirinfoSet where
  deltaBitmap := completeBitmap
  dirinfoSet := dirinfos
  newDirinfoDeltaSet := []
  staleDirinfoDeltaSet := []
  bitmap_wf := by decide
  new_iff := by simp; decide
  stale_iff := by simp; decide

def isComplete (set : DirinfoSet) : Bool :=
  set.deltaBitmap &&& deltaMask == completeBitmap &&& deltaMask

def isCompressed (set : DirinfoSet) : Bool :=
  set.deltaBitmap &&& deltaMask == deltaMask

/-- Compressed without any delta: the set did not change. -/
def isFullyCompressed (set : DirinfoSet) : Bool :=
  set.deltaBitmap &&& deltaMask == deltaMask
    && decide (¬ hasNewDelta set.deltaBitmap) && decide (¬ hasStaleDelta set.deltaBitmap)

/-! ## Complete sets

The functions named `IfComplete` answer whether the set is complete and, if so, fill in their
result; here the result is absent for a compressed set. -/

def getDirinfoSetIfComplete (set : DirinfoSet) : Option (List DirectoryInfo) :=
  if set.isComplete then some set.dirinfoSet else none

def isExistIfComplete (set : DirinfoSet) (dirinfo : DirectoryInfo) : Option Bool :=
  if set.isComplete then some (decide (dirinfo ∈ set.dirinfoSet)) else none

def getDirinfoSetSizeIfComplete (set : DirinfoSet) : Option Nat :=
  if set.isComplete then some set.dirinfoSet.length else none

def tryToInsertIfComplete (set : DirinfoSet) (dirinfo : DirectoryInfo) : Option DirinfoSet :=
  if set.isComplete then
    some { set with
      dirinfoSet :=
        if dirinfo ∈ set.dirinfoSet then set.dirinfoSet else set.dirinfoSet ++ [dirinfo] }
  else none

/-- The infos without the first occurrence of the given one. -/
def tryToEraseIfComplete (set : DirinfoSet) (dirinfo : DirectoryInfo) : Option DirinfoSet :=
  if set.isComplete then some { set with dirinfoSet := set.dirinfoSet.erase dirinfo } else none

def getDirinfoIfComplete (set : DirinfoSet) (advanceIdx : Nat) : Option DirectoryInfo :=
  if set.isComplete then set.dirinfoSet[advanceIdx]? else none

def setDirinfoSetForComplete (_ : DirinfoSet) (dirinfos : List DirectoryInfo) : DirinfoSet :=
  ofList dirinfos

/-! ## Compressed sets -/

/-- The new and the stale infos of a compressed set. -/
def getDeltaDirinfoSetIfCompressed (set : DirinfoSet) :
    Option (List DirectoryInfo × List DirectoryInfo) :=
  if set.isComplete then none
  else some (if hasNewDelta set.deltaBitmap then set.newDirinfoDeltaSet else [],
    if hasStaleDelta set.deltaBitmap then set.staleDirinfoDeltaSet else [])

theorem bitmap_or_new_wf : ∀ b : BitVec 3,
    (b &&& 0b110#3 ≠ 0 → b &&& deltaMask = deltaMask) →
      hasNewDelta (b ||| deltaMask ||| newDirinfoSetDeltaMask) ∧
      (hasStaleDelta (b ||| deltaMask ||| newDirinfoSetDeltaMask) ↔ hasStaleDelta b) ∧
      (hasNewDelta (b ||| deltaMask) ↔ hasNewDelta b) ∧
      (hasStaleDelta (b ||| deltaMask) ↔ hasStaleDelta b) := by
  decide +kernel

theorem bitmap_or_stale_wf : ∀ b : BitVec 3,
    (b &&& deltaMask = deltaMask) →
      hasStaleDelta (b ||| staleDirinfoSetDeltaMask) ∧
      (hasNewDelta (b ||| staleDirinfoSetDeltaMask) ↔ hasNewDelta b) := by
  decide +kernel

theorem bitmap_or_delta : ∀ b : BitVec 3,
    (b ||| deltaMask) &&& deltaMask = deltaMask ∧
      (b ||| deltaMask ||| newDirinfoSetDeltaMask) &&& deltaMask = deltaMask ∧
      (b &&& deltaMask = deltaMask →
        (b ||| staleDirinfoSetDeltaMask) &&& deltaMask = deltaMask) := by
  decide +kernel

/-- The bitmap and the list after the new delta of `setDeltaDirinfoSetForCompress`. -/
def setNewDelta (set : DirinfoSet) (newDelta : List DirectoryInfo) : DirinfoSet :=
  if h : newDelta ≠ [] then
    { set with
      deltaBitmap := set.deltaBitmap ||| deltaMask ||| newDirinfoSetDeltaMask
      dirinfoSet := []
      newDirinfoDeltaSet := newDelta
      bitmap_wf := fun _ => (bitmap_or_delta _).2.1
      new_iff := iff_of_true (bitmap_or_new_wf _ set.bitmap_wf).1 h
      stale_iff := ((bitmap_or_new_wf _ set.bitmap_wf).2.1).trans set.stale_iff }
  else
    { set with
      deltaBitmap := set.deltaBitmap ||| deltaMask
      dirinfoSet := []
      bitmap_wf := fun _ => (bitmap_or_delta _).1
      new_iff := ((bitmap_or_new_wf _ set.bitmap_wf).2.2.1).trans set.new_iff
      stale_iff := ((bitmap_or_new_wf _ set.bitmap_wf).2.2.2).trans set.stale_iff }

theorem setNewDelta_delta (set : DirinfoSet) (newDelta : List DirectoryInfo) :
    (set.setNewDelta newDelta).deltaBitmap &&& deltaMask = deltaMask := by
  unfold setNewDelta
  split
  · exact (bitmap_or_delta _).2.1
  · exact (bitmap_or_delta _).1

/-- Turn the set into a compressed one with the given deltas; an empty delta is not stored. -/
def setDeltaDirinfoSetForCompress (set : DirinfoSet) (newDelta staleDelta : List DirectoryInfo) :
    DirinfoSet :=
  let withNew := set.setNewDelta newDelta
  if h : staleDelta ≠ [] then
    { withNew with
      deltaBitmap := withNew.deltaBitmap ||| staleDirinfoSetDeltaMask
      staleDirinfoDeltaSet := staleDelta
      bitmap_wf := fun _ => (bitmap_or_delta _).2.2 (set.setNewDelta_delta newDelta)
      new_iff :=
        ((bitmap_or_stale_wf _ (set.setNewDelta_delta newDelta)).2).trans withNew.new_iff
      stale_iff := iff_of_true (bitmap_or_stale_wf _ (set.setNewDelta_delta newDelta)).1 h }
  else withNew

/-! ## Sizes -/

/-- Bytes of the infos themselves. -/
def totalPayloadSize (dirinfos : List DirectoryInfo) : Nat :=
  (dirinfos.map DirectoryInfo.getDirectoryInfoPayloadSize).sum

/-- Bytes of a list of infos in a message, with its length. -/
def getDirinfoSetPayloadSizeInternal (dirinfos : List DirectoryInfo) : Nat :=
  4 + totalPayloadSize dirinfos

def getDirinfoSetPayloadSize (set : DirinfoSet) : Nat :=
  1 + if set.isComplete then getDirinfoSetPayloadSizeInternal set.dirinfoSet
    else
      (if hasNewDelta set.deltaBitmap then
          getDirinfoSetPayloadSizeInternal set.newDirinfoDeltaSet else 0)
        + (if hasStaleDelta set.deltaBitmap then
          getDirinfoSetPayloadSizeInternal set.staleDirinfoDeltaSet else 0)

/-- Bytes of the set counted for the cache capacity. The source computes the bytes of the deltas of
a compressed set and does not add them. -/
def getSizeForCapacity (set : DirinfoSet) : Nat :=
  1 + if set.isComplete then (set.dirinfoSet.map DirectoryInfo.getSizeForCapacity).sum else 0

/-! ## Transmission -/

/-- What a receiver reads of a set: a complete list is sent for a complete set only. -/
def received (set : DirinfoSet) : DirinfoSet :=
  { set with dirinfoSet := if set.isComplete then set.dirinfoSet else [] }

@[simp] theorem isComplete_received (set : DirinfoSet) :
    set.received.isComplete = set.isComplete := rfl

variable {set : DirinfoSet}

theorem dirinfoSet_received (h : set.isComplete = true) :
    set.received.dirinfoSet = set.dirinfoSet := if_pos h

/-- Nothing is lost of a set that has a list only if it is complete. -/
theorem received_eq_self (h : set.isComplete = false → set.dirinfoSet = []) :
    set.received = set := by
  cases hcomplete : set.isComplete with
  | true => simp [received, hcomplete]
  | false => simp [received, hcomplete, ← h hcomplete]

theorem received_received (set : DirinfoSet) : set.received.received = set.received := by
  apply received_eq_self
  intro hcomplete
  rw [isComplete_received] at hcomplete
  exact if_neg (Bool.eq_false_iff.1 hcomplete)

@[simp] theorem getSizeForCapacity_received (set : DirinfoSet) :
    set.received.getSizeForCapacity = set.getSizeForCapacity := by
  rw [getSizeForCapacity, getSizeForCapacity, isComplete_received]
  by_cases h : set.isComplete = true
  · rw [if_pos h, if_pos h, dirinfoSet_received h]
  · rw [if_neg h, if_neg h]

/-! ## Compression and recovery -/

/-- Infos of `dirinfos` that are not in `others`. -/
def notIn (dirinfos others : List DirectoryInfo) : List DirectoryInfo :=
  dirinfos.filter fun dirinfo => dirinfo ∉ others

def compress (current prev : DirinfoSet) : Option DirinfoSet := do
  require (current.isComplete = true)
  require (prev.isComplete = true)
  let currentList ← current.getDirinfoSetIfComplete
  let prevList ← prev.getDirinfoSetIfComplete
  let newDelta := notIn currentList prevList
  let staleDelta := notIn prevList currentList
  let withCompleteDirinfoSet :=
    totalPayloadSize currentList ≤ totalPayloadSize newDelta + totalPayloadSize staleDelta
  let compressed :=
    if withCompleteDirinfoSet then current
    else current.setDeltaDirinfoSetForCompress newDelta staleDelta
  return if compressed.getDirinfoSetPayloadSize < current.getDirinfoSetPayloadSize then compressed
    else current

/-- Append the info unless the list has it. -/
def addNew (dirinfos : List DirectoryInfo) (dirinfo : DirectoryInfo) : List DirectoryInfo :=
  if dirinfo ∈ dirinfos then dirinfos else dirinfos ++ [dirinfo]

def recover (compressed existing : DirinfoSet) : Option DirinfoSet := do
  require (compressed.isCompressed = true)
  require (compressed.isFullyCompressed = false)
  require (existing.isComplete = true)
  let existingList ← existing.getDirinfoSetIfComplete
  let (newDelta, staleDelta) ← compressed.getDeltaDirinfoSetIfCompressed
  let withNew := newDelta.foldl addNew existingList
  let complete := staleDelta.foldl List.erase withNew
  return existing.setDirinfoSetForComplete complete

/-! ## The round trip -/

@[simp] theorem isComplete_ofList (dirinfos : List DirectoryInfo) :
    (ofList dirinfos).isComplete = true := by
  simp [isComplete, ofList]

@[simp] theorem dirinfoSet_ofList (dirinfos : List DirectoryInfo) :
    (ofList dirinfos).dirinfoSet = dirinfos := rfl

@[simp] theorem getDirinfoSetIfComplete_ofList (dirinfos : List DirectoryInfo) :
    (ofList dirinfos).getDirinfoSetIfComplete = some dirinfos := by
  simp [getDirinfoSetIfComplete]

theorem bitmap_complete_or_delta : ∀ b : BitVec 3,
    (b &&& deltaMask == completeBitmap &&& deltaMask) = !(b &&& deltaMask == deltaMask) := by
  decide +kernel

/-- A set is compressed iff it is not complete. -/
theorem isComplete_eq_not_isCompressed (set : DirinfoSet) :
    set.isComplete = !set.isCompressed :=
  bitmap_complete_or_delta set.deltaBitmap

theorem bitmap_deltas_of_complete : ∀ b : BitVec 3,
    (b &&& deltaMask == completeBitmap &&& deltaMask) = true →
      ¬ hasNewDelta b ∧ ¬ hasStaleDelta b := by
  decide +kernel

theorem deltas_eq_nil_of_isComplete (h : set.isComplete = true) :
    set.newDirinfoDeltaSet = [] ∧ set.staleDirinfoDeltaSet = [] := by
  obtain ⟨hnew, hstale⟩ := bitmap_deltas_of_complete set.deltaBitmap h
  rw [set.new_iff, not_not] at hnew
  rw [set.stale_iff, not_not] at hstale
  exact ⟨hnew, hstale⟩

theorem newDirinfoDeltaSet_setNewDelta (h : set.isComplete = true) (newDelta : List DirectoryInfo) :
    (set.setNewDelta newDelta).newDirinfoDeltaSet = newDelta := by
  unfold setNewDelta
  split
  · rfl
  · next hnil =>
    rw [not_not] at hnil
    rw [hnil]
    exact (deltas_eq_nil_of_isComplete h).1

theorem staleDirinfoDeltaSet_setNewDelta (set : DirinfoSet) (newDelta : List DirectoryInfo) :
    (set.setNewDelta newDelta).staleDirinfoDeltaSet = set.staleDirinfoDeltaSet := by
  unfold setNewDelta
  split <;> rfl

/-- The set that `compress` builds from a complete one carries exactly the two deltas. -/
theorem setDelta_spec (h : set.isComplete = true) (newDelta staleDelta : List DirectoryInfo) :
    (set.setDeltaDirinfoSetForCompress newDelta staleDelta).isCompressed = true ∧
      (set.setDeltaDirinfoSetForCompress newDelta staleDelta).newDirinfoDeltaSet = newDelta ∧
      (set.setDeltaDirinfoSetForCompress newDelta staleDelta).staleDirinfoDeltaSet =
        staleDelta := by
  have hdelta := set.setNewDelta_delta newDelta
  have hnew := newDirinfoDeltaSet_setNewDelta h newDelta
  have hstale := staleDirinfoDeltaSet_setNewDelta set newDelta
  rw [(deltas_eq_nil_of_isComplete h).2] at hstale
  unfold setDeltaDirinfoSetForCompress
  simp only
  split
  · refine ⟨?_, hnew, rfl⟩
    simpa [isCompressed] using (bitmap_or_delta _).2.2 hdelta
  · next hnil =>
    rw [not_not] at hnil
    refine ⟨by simpa [isCompressed] using hdelta, hnew, ?_⟩
    rw [hstale, hnil]

theorem getDelta_eq (h : set.isCompressed = true) :
    set.getDeltaDirinfoSetIfCompressed =
      some (set.newDirinfoDeltaSet, set.staleDirinfoDeltaSet) := by
  have hnot : set.isComplete = false := by rw [isComplete_eq_not_isCompressed, h]; rfl
  have hnew : (if hasNewDelta set.deltaBitmap then set.newDirinfoDeltaSet else []) =
      set.newDirinfoDeltaSet := by
    split
    · rfl
    · next hn => rw [set.new_iff, not_not] at hn; exact hn.symm
  have hstale : (if hasStaleDelta set.deltaBitmap then set.staleDirinfoDeltaSet else []) =
      set.staleDirinfoDeltaSet := by
    split
    · rfl
    · next hn => rw [set.stale_iff, not_not] at hn; exact hn.symm
  simp [getDeltaDirinfoSetIfCompressed, hnot, hnew, hstale]

theorem isFullyCompressed_iff (h : set.isCompressed = true) :
    set.isFullyCompressed = true ↔
      set.newDirinfoDeltaSet = [] ∧ set.staleDirinfoDeltaSet = [] := by
  have hmask : (set.deltaBitmap &&& deltaMask == deltaMask) = true := h
  simp only [isFullyCompressed, hmask, Bool.true_and, Bool.and_eq_true, decide_eq_true_eq,
    set.new_iff, set.stale_iff, not_not]

theorem mem_foldl_addNew (newDelta : List DirectoryInfo) (dirinfos : List DirectoryInfo)
    (d : DirectoryInfo) : d ∈ newDelta.foldl addNew dirinfos ↔ d ∈ dirinfos ∨ d ∈ newDelta := by
  induction newDelta generalizing dirinfos with
  | nil => simp
  | cons e rest ih =>
    have hadd : d ∈ addNew dirinfos e ↔ d ∈ dirinfos ∨ d = e := by
      unfold addNew
      split
      · next he => exact ⟨.inl, fun h => h.elim id fun hd => hd ▸ he⟩
      · simp
    rw [foldl_cons, ih, hadd, mem_cons, or_assoc]

theorem count_foldl_addNew (newDelta : List DirectoryInfo) (dirinfos : List DirectoryInfo)
    {d : DirectoryInfo} (hd : d ∉ newDelta) :
    (newDelta.foldl addNew dirinfos).count d = dirinfos.count d := by
  induction newDelta generalizing dirinfos with
  | nil => rfl
  | cons e rest ih =>
    rw [mem_cons, not_or] at hd
    have hadd : (addNew dirinfos e).count d = dirinfos.count d := by
      unfold addNew
      split
      · rfl
      · rw [count_append, count_singleton, beq_false_of_ne (Ne.symm hd.1)]
        rfl
    rw [foldl_cons, ih _ hd.2, hadd]

theorem count_foldl_erase (staleDelta dirinfos : List DirectoryInfo) (d : DirectoryInfo) :
    (staleDelta.foldl List.erase dirinfos).count d = dirinfos.count d - staleDelta.count d := by
  induction staleDelta generalizing dirinfos with
  | nil => rfl
  | cons e rest ih =>
    rw [foldl_cons, ih, count_erase, count_cons]
    omega

/-- Adding the new infos and erasing the stale ones leads from what is known of the previous infos
to the current ones, as a set, if nothing is known more often than it was there. -/
theorem mem_recovered_of_count {current prev known : List DirectoryInfo}
    (hcount : ∀ d, known.count d ≤ prev.count d) (hsame : ∀ d, d ∈ known ↔ d ∈ prev)
    (d : DirectoryInfo) :
    d ∈ (notIn prev current).foldl List.erase ((notIn current prev).foldl addNew known) ↔
      d ∈ current := by
  rw [← count_pos_iff, count_foldl_erase]
  by_cases hcur : d ∈ current
  · have hstale : (notIn prev current).count d = 0 := by
      rw [count_eq_zero]
      simp [notIn, hcur]
    have hmem : d ∈ (notIn current prev).foldl addNew known := by
      rw [mem_foldl_addNew, hsame]
      by_cases hprev : d ∈ prev
      · exact .inl hprev
      · exact .inr (by simp [notIn, hcur, hprev])
    have hpos := count_pos_iff.2 hmem
    constructor
    · exact fun _ => hcur
    · intro _
      omega
  · have hnew : d ∉ notIn current prev := by simp [notIn, hcur]
    have hstale : (notIn prev current).count d = prev.count d :=
      count_filter (by simp [hcur])
    have hle := hcount d
    rw [count_foldl_addNew _ _ hnew, hstale]
    constructor
    · intro hpos
      omega
    · exact fun hmem => absurd hmem hcur

/-- From the previous infos themselves, whatever multiplicities the two lists have. -/
theorem mem_recovered (current prev : List DirectoryInfo) (d : DirectoryInfo) :
    d ∈ (notIn prev current).foldl List.erase ((notIn current prev).foldl addNew prev) ↔
      d ∈ current :=
  mem_recovered_of_count (fun _ => le_refl _) (fun _ => Iff.rfl) d

variable {current prev : DirinfoSet}

/-- What `compress` returns for two complete sets: the current set, or its deltas. -/
theorem compress_spec (hcur : current.isComplete = true) (hprev : prev.isComplete = true) :
    ∃ c, compress current prev = some c ∧
      (c = current ∨ c.isCompressed = true ∧
        c.newDirinfoDeltaSet = notIn current.dirinfoSet prev.dirinfoSet ∧
        c.staleDirinfoDeltaSet = notIn prev.dirinfoSet current.dirinfoSet) := by
  simp only [compress, getDirinfoSetIfComplete, hcur, hprev, require, if_true, some_bind,
    Option.pure_def]
  refine ⟨_, rfl, ?_⟩
  split_ifs
  · exact .inl rfl
  · exact .inl rfl
  · exact .inr (setDelta_spec hcur _ _)
  · exact .inl rfl

variable {c : DirinfoSet}

/-- Recovery against any complete set does not abort and gives a complete set. -/
theorem recover_isSome {existing : DirinfoSet} (hcomp : c.isCompressed = true)
    (hfull : c.isFullyCompressed = false) (hexisting : existing.isComplete = true) :
    ∃ r, recover c existing = some r ∧ r.isComplete = true := by
  refine ⟨ofList (c.staleDirinfoDeltaSet.foldl List.erase
    (c.newDirinfoDeltaSet.foldl addNew existing.dirinfoSet)), ?_, isComplete_ofList _⟩
  simp [recover, hcomp, hfull, hexisting, getDirinfoSetIfComplete, getDelta_eq hcomp, require,
    setDirinfoSetForComplete]

/-- Recovery of what `compress` made: if it is a nonempty delta, the recovered set is complete and
has the current infos; if it is an empty delta, the previous set has them already. -/
theorem recover_compress (hcur : current.isComplete = true) (hprev : prev.isComplete = true)
    (hc : compress current prev = some c) (hcomp : c.isCompressed = true) :
    (c.isFullyCompressed = true ∧ ∀ d, d ∈ prev.dirinfoSet ↔ d ∈ current.dirinfoSet) ∨
      (c.isFullyCompressed = false ∧ ∃ r, recover c prev = some r ∧ r.isComplete = true ∧
        ∀ d, d ∈ r.dirinfoSet ↔ d ∈ current.dirinfoSet) := by
  obtain ⟨c', hc', hspec⟩ := compress_spec hcur hprev
  rw [hc, Option.some.injEq] at hc'
  subst hc'
  rcases hspec with rfl | ⟨-, hnew, hstale⟩
  · rw [isComplete_eq_not_isCompressed, hcomp] at hcur
    simp at hcur
  have hmem := mem_recovered current.dirinfoSet prev.dirinfoSet
  rw [← hnew, ← hstale] at hmem
  cases hfull : c.isFullyCompressed with
  | true =>
    obtain ⟨hnil, hnil'⟩ := (isFullyCompressed_iff hcomp).1 hfull
    rw [hnil, hnil'] at hmem
    exact .inl ⟨rfl, hmem⟩
  | false =>
    refine .inr ⟨rfl, _, ?_, isComplete_ofList _, hmem⟩
    simp [recover, hcomp, hfull, hprev, getDirinfoSetIfComplete, getDelta_eq hcomp, require,
      setDirinfoSetForComplete]

/-- The delta form is taken only if it is shorter than the complete set. -/
theorem payload_lt_of_compress (hcur : current.isComplete = true) (hprev : prev.isComplete = true)
    (hc : compress current prev = some c) (hcomp : c.isCompressed = true) :
    c.getDirinfoSetPayloadSize < current.getDirinfoSetPayloadSize := by
  simp only [compress, getDirinfoSetIfComplete, hcur, hprev, require, if_true, some_bind,
    pure_eq_some_iff] at hc
  have hnot : c ≠ current := by
    rintro rfl
    rw [isComplete_eq_not_isCompressed, hcomp] at hcur
    cases hcur
  split_ifs at hc with _ hlt hlt
  · exact absurd hc.symm hnot
  · exact absurd hc.symm hnot
  · rw [← hc]
    exact hlt
  · exact absurd hc.symm hnot

theorem notIn_eq_nil_iff (dirinfos others : List DirectoryInfo) :
    notIn dirinfos others = [] ↔ ∀ d, d ∈ dirinfos → d ∈ others := by
  simp [notIn, filter_eq_nil_iff]

/-- A set in the delta form carries no infos iff the two sets it was made from are equal. -/
theorem deltas_eq_nil_iff (hcur : current.isComplete = true) (hprev : prev.isComplete = true)
    (hc : compress current prev = some c) (hcomp : c.isCompressed = true) :
    c.newDirinfoDeltaSet = [] ∧ c.staleDirinfoDeltaSet = [] ↔
      ∀ d, d ∈ current.dirinfoSet ↔ d ∈ prev.dirinfoSet := by
  obtain ⟨c', hc', hspec⟩ := compress_spec hcur hprev
  rw [hc, Option.some.injEq] at hc'
  subst hc'
  rcases hspec with rfl | ⟨-, hnew, hstale⟩
  · rw [isComplete_eq_not_isCompressed, hcomp] at hcur
    cases hcur
  rw [hnew, hstale, notIn_eq_nil_iff, notIn_eq_nil_iff]
  constructor
  · rintro ⟨hsub, hsup⟩ d
    exact ⟨hsub d, hsup d⟩
  · intro hsame
    exact ⟨fun d => (hsame d).1, fun d => (hsame d).2⟩

/-- Recovery asserts that it gets a nonempty delta. -/
theorem recover_eq_none (existing : DirinfoSet)
    (h : c.isComplete = true ∨ c.isFullyCompressed = true) : recover c existing = none := by
  rw [isComplete_eq_not_isCompressed] at h
  rcases h with hcomplete | hfull
  · have hnot : c.isCompressed = false := by simpa using hcomplete
    simp [recover, require, hnot]
  · simp [recover, require, hfull]

/-- Compression of a complete set against another one. The result is the current set itself or a
delta. A delta is shorter than the current set and carries nothing iff the two sets are equal; a
delta that carries something recovers the current set. The other two results are not for
`recover`: the complete set needs none, and after an empty delta the previous set stays. -/
theorem compress_recoverable {current prev : DirinfoSet} (hcur : current.isComplete = true)
    (hprev : prev.isComplete = true) :
    ∃ c, compress current prev = some c ∧
      (c = current ∧ recover c prev = none ∨
        c.isCompressed = true ∧
          c.getDirinfoSetPayloadSize < current.getDirinfoSetPayloadSize ∧
          (c.newDirinfoDeltaSet = [] ∧ c.staleDirinfoDeltaSet = [] ↔
            ∀ d, d ∈ current.dirinfoSet ↔ d ∈ prev.dirinfoSet) ∧
          (c.newDirinfoDeltaSet = [] ∧ c.staleDirinfoDeltaSet = [] ∧ recover c prev = none ∨
            ∃ r, recover c prev = some r ∧ r.isComplete = true ∧
              ∀ d, d ∈ r.dirinfoSet ↔ d ∈ current.dirinfoSet)) := by
  obtain ⟨c, hc, hspec⟩ := compress_spec hcur hprev
  refine ⟨c, hc, ?_⟩
  rcases hspec with rfl | ⟨hcomp, -, -⟩
  · exact .inl ⟨rfl, recover_eq_none prev (.inl hcur)⟩
  refine .inr ⟨hcomp, payload_lt_of_compress hcur hprev hc hcomp,
    deltas_eq_nil_iff hcur hprev hc hcomp, ?_⟩
  rcases recover_compress hcur hprev hc hcomp with ⟨hfull, -⟩ | ⟨-, r, hr, hcomplete, hsame⟩
  · obtain ⟨hnew, hstale⟩ := (isFullyCompressed_iff hcomp).1 hfull
    exact .inl ⟨hnew, hstale, recover_eq_none prev (.inr hfull)⟩
  · exact .inr ⟨r, hr, hcomplete, hsame⟩

/-- Three infos against four, one of them stale: the delta is taken and recovers them. -/
theorem compress_recoverable_stale :
    ∃ c, compress (ofList [⟨0⟩, ⟨1⟩, ⟨2⟩]) (ofList [⟨0⟩, ⟨1⟩, ⟨2⟩, ⟨3⟩]) = some c ∧
      c.isCompressed = true ∧
      ∃ r, recover c (ofList [⟨0⟩, ⟨1⟩, ⟨2⟩, ⟨3⟩]) = some r ∧
        ∀ d, d ∈ r.dirinfoSet ↔ d ∈ [(⟨0⟩ : DirectoryInfo), ⟨1⟩, ⟨2⟩] := by
  obtain ⟨c, hc, hspec⟩ := compress_recoverable (isComplete_ofList [⟨0⟩, ⟨1⟩, ⟨2⟩])
    (isComplete_ofList [⟨0⟩, ⟨1⟩, ⟨2⟩, ⟨3⟩])
  have hdelta : (compress (ofList [⟨0⟩, ⟨1⟩, ⟨2⟩]) (ofList [⟨0⟩, ⟨1⟩, ⟨2⟩, ⟨3⟩])).any
      (fun c => c.isCompressed && !c.staleDirinfoDeltaSet.isEmpty) = true := by decide +kernel
  rw [hc, Option.any_some, Bool.and_eq_true, Bool.not_eq_true'] at hdelta
  obtain ⟨hcomp, hstale⟩ := hdelta
  rcases hspec with ⟨rfl, -⟩ | ⟨-, -, -, ⟨-, hnil, -⟩ | ⟨r, hr, -, hsame⟩⟩
  · rw [(deltas_eq_nil_of_isComplete (isComplete_ofList _)).2] at hstale
    cases hstale
  · rw [hnil] at hstale
    cases hstale
  · exact ⟨c, hc, hcomp, r, hr, hsame⟩

/-- Equal sets with one info give an empty delta, and a set that shares nothing with the previous
one comes back complete; recovery aborts on both. -/
theorem recover_compress_aborts :
    (∃ c, compress (ofList [⟨0⟩]) (ofList [⟨0⟩]) = some c ∧ recover c (ofList [⟨0⟩]) = none) ∧
      ∃ c, compress (ofList [⟨0⟩]) (ofList []) = some c ∧ recover c (ofList []) = none := by
  refine ⟨?_, ?_⟩
  · refine ⟨(ofList [⟨0⟩]).setDeltaDirinfoSetForCompress [] [], ?_, ?_⟩ <;> decide +kernel
  · refine ⟨ofList [⟨0⟩], ?_, ?_⟩ <;> decide +kernel

end DirinfoSet

end Covered.Cooperation
