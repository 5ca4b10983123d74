import Mathlib.Tactic.Linarith
import Covered.Common.Util
import Covered.Lib.KeyedList
import Covered.Lib.SortBy

/-!
# Victim cacheinfos and their deduplication

A victim cacheinfo describes one cached object that an edge would evict: its size, its popularities
and its reward. It is complete, or deduplicated against a previous cacheinfo of the same key (fields
that did not change are dropped), or stale (the key is not a victim any longer). The bitmap says
which of these it is.

`recoverField_dedupField` is the round trip of one field, and `recover_dedup` of a whole cacheinfo:
a field is recovered when the receiver has the previous value and the approximate comparison of the
source does not take two different values for equal.

The bitmap has six bits here; the upper two bits of the source's byte are set only in the bitmap of
a default-constructed cacheinfo, which is replaced before it is used.
-/

set_option autoImplicit false

namespace Covered.Victim

open Common Lib Lib.Checked Lib.SortBy

namespace VictimCacheinfo

def completeBitmap : BitVec 6 := 0b000000#6
def dedupMask : BitVec 6 := 0b000001#6
def staleBitmap : BitVec 6 := 0b111111#6
def objectSizeDedupMask : BitVec 6 := 0b000010#6 ||| dedupMask
def localCachedPopularityDedupMask : BitVec 6 := 0b000100#6 ||| dedupMask
def redirectedCachedPopularityDedupMask : BitVec 6 := 0b001000#6 ||| dedupMask
def localRewardDedupMask : BitVec 6 := 0b010000#6 ||| dedupMask

/-- The bitmap has all bits of the mask. -/
def Has (bitmap mask : BitVec 6) : Prop := bitmap &&& mask = mask

instance (bitmap mask : BitVec 6) : Decidable (Has bitmap mask) :=
  inferInstanceAs (Decidable (_ = _))

/-- Stale, or complete, or with the lowest bit and at least one field deduplicated. -/
def LegalBitmap (bitmap : BitVec 6) : Prop :=
  bitmap = staleBitmap ∨
    (bitmap &&& 0b100000#6 = 0 ∧ (Has bitmap dedupMask ↔ bitmap &&& 0b011110#6 ≠ 0))

instance (bitmap : BitVec 6) : Decidable (LegalBitmap bitmap) :=
  inferInstanceAs (Decidable (_ ∨ _))

end VictimCacheinfo

open VictimCacheinfo in
/-- Complete, deduplicated or stale description of a victim. -/
structure VictimCacheinfo where
  dedupBitmap : BitVec 6
  key : Key
  beaconEdgeidx : Option Nat
  objectSize : Nat
  localCachedPopularity : Popularity
  redirectedCachedPopularity : Popularity
  localReward : Reward
  redirectedCachedReward : Reward
  bitmap_wf : LegalBitmap dedupBitmap
deriving DecidableEq

namespace VictimCacheinfo

/-- A complete cacheinfo without a known beacon. -/
def create (key : Key) (objectSize : Nat)
    (localCachedPopularity redirectedCachedPopularity : Popularity)
    (localReward redirectedCachedReward : Reward) : VictimCacheinfo where
  dedupBitmap := completeBitmap
  key := key
  beaconEdgeidx := none
  objectSize := objectSize
  localCachedPopularity := localCachedPopularity
  redirectedCachedPopularity := redirectedCachedPopularity
  localReward := localReward
  redirectedCachedReward := redirectedCachedReward
  bitmap_wf := by decide

def isComplete (v : VictimCacheinfo) : Bool :=
  v.dedupBitmap != staleBitmap &&
    decide (v.dedupBitmap &&& dedupMask = completeBitmap &&& dedupMask)

def isStale (v : VictimCacheinfo) : Bool := v.dedupBitmap == staleBitmap

def isDeduped (v : VictimCacheinfo) : Bool :=
  v.dedupBitmap != staleBitmap && decide (Has v.dedupBitmap dedupMask)

def isFullyDeduped (v : VictimCacheinfo) : Bool :=
  v.dedupBitmap != staleBitmap && decide (Has v.dedupBitmap objectSizeDedupMask) &&
    decide (Has v.dedupBitmap localCachedPopularityDedupMask) &&
    decide (Has v.dedupBitmap redirectedCachedPopularityDedupMask) &&
    decide (Has v.dedupBitmap localRewardDedupMask)

/-! ## Fields of a complete or deduplicated cacheinfo

A getter of the source answers whether the field is complete and, if so, fills in its result; here
the result is absent for a deduplicated field. -/

def getObjectSize (v : VictimCacheinfo) : Option Nat :=
  if ¬ Has v.dedupBitmap objectSizeDedupMask then some v.objectSize else none

def getLocalCachedPopularity (v : VictimCacheinfo) : Option Popularity :=
  if ¬ Has v.dedupBitmap localCachedPopularityDedupMask then some v.localCachedPopularity else none

def getRedirectedCachedPopularity (v : VictimCacheinfo) : Option Popularity :=
  if ¬ Has v.dedupBitmap redirectedCachedPopularityDedupMask then
    some v.redirectedCachedPopularity
  else none

def getRedirectedCachedPopularityReward (v : VictimCacheinfo) : Option Reward :=
  if ¬ Has v.dedupBitmap redirectedCachedPopularityDedupMask then some v.redirectedCachedReward
  else none

def getLocalReward (v : VictimCacheinfo) : Option Reward :=
  if ¬ Has v.dedupBitmap localRewardDedupMask then some v.localReward else none

/-- A bitmap stays legal when a field is deduplicated. -/
theorem legalBitmap_or : ∀ bitmap : BitVec 6, LegalBitmap bitmap →
    LegalBitmap (bitmap ||| objectSizeDedupMask) ∧
    LegalBitmap (bitmap ||| localCachedPopularityDedupMask) ∧
    LegalBitmap (bitmap ||| redirectedCachedPopularityDedupMask) ∧
    LegalBitmap (bitmap ||| localRewardDedupMask) := by
  decide +kernel

def markStale (v : VictimCacheinfo) : VictimCacheinfo :=
  { v with dedupBitmap := staleBitmap, bitmap_wf := by decide }

def dedupObjectSize (v : VictimCacheinfo) : VictimCacheinfo :=
  { v with
    dedupBitmap := v.dedupBitmap ||| objectSizeDedupMask
    objectSize := 0
    bitmap_wf := (legalBitmap_or _ v.bitmap_wf).1 }

def dedupLocalCachedPopularity (v : VictimCacheinfo) : VictimCacheinfo :=
  { v with
    dedupBitmap := v.dedupBitmap ||| localCachedPopularityDedupMask
    localCachedPopularity := 0
    bitmap_wf := (legalBitmap_or _ v.bitmap_wf).2.1 }

def dedupRedirectedCachedPopularity (v : VictimCacheinfo) : VictimCacheinfo :=
  { v with
    dedupBitmap := v.dedupBitmap ||| redirectedCachedPopularityDedupMask
    redirectedCachedPopularity := 0
    redirectedCachedReward := 0
    bitmap_wf := (legalBitmap_or _ v.bitmap_wf).2.2.1 }

def dedupLocalReward (v : VictimCacheinfo) : VictimCacheinfo :=
  { v with
    dedupBitmap := v.dedupBitmap ||| localRewardDedupMask
    localReward := 0
    bitmap_wf := (legalBitmap_or _ v.bitmap_wf).2.2.2 }

/-! ## Sizes -/

/-- Bytes of the fields that are not deduplicated. -/
def fieldsSize (v : VictimCacheinfo) : Nat :=
  (if ¬ Has v.dedupBitmap objectSizeDedupMask then 4 else 0) +
    (if ¬ Has v.dedupBitmap localCachedPopularityDedupMask then 4 else 0) +
    (if ¬ Has v.dedupBitmap redirectedCachedPopularityDedupMask then 4 else 0) +
    (if ¬ Has v.dedupBitmap localRewardDedupMask then 4 else 0)

/-- Bytes of the cacheinfo in a message: bitmap, key, beacon and fields. -/
def getVictimCacheinfoPayloadSize (v : VictimCacheinfo) : Nat :=
  1 + v.key.getKeyPayloadSize + 4 + v.fieldsSize

/-- Bytes of the cacheinfo counted for the cache capacity. -/
def getSizeForCapacity (v : VictimCacheinfo) : Nat := 1 + v.key.getKeyLength + v.fieldsSize

/-! ## Transmission -/

/-- What a receiver reads of a cacheinfo. The fields that are not sent have their defaults, and so
has the reward of the redirected requests, which is never sent. -/
def received (v : VictimCacheinfo) : VictimCacheinfo :=
  { v with
    objectSize := v.getObjectSize.getD 0
    localCachedPopularity := v.getLocalCachedPopularity.getD 0
    redirectedCachedPopularity := v.getRedirectedCachedPopularity.getD 0
    localReward := v.getLocalReward.getD 0
    redirectedCachedReward := 0 }

@[simp] theorem getSizeForCapacity_received (v : VictimCacheinfo) :
    v.received.getSizeForCapacity = v.getSizeForCapacity := rfl

/-! ## Deduplication and recovery -/

/-- Drop every field that did not change. -/
def dedupFields (current prev : VictimCacheinfo) : VictimCacheinfo :=
  let v₁ := if current.objectSize = prev.objectSize then current.dedupObjectSize else current
  let v₂ := if isApproxEqual current.localCachedPopularity prev.localCachedPopularity then
    v₁.dedupLocalCachedPopularity else v₁
  let v₃ := if isApproxEqual current.redirectedCachedPopularity prev.redirectedCachedPopularity then
    v₂.dedupRedirectedCachedPopularity else v₂
  if isApproxEqual current.localReward prev.localReward then v₃.dedupLocalReward else v₃

def dedup (current prev : VictimCacheinfo) : Option VictimCacheinfo := do
  require (current.isComplete = true)
  require (prev.isComplete = true)
  let deduped := dedupFields current prev
  return if deduped.getVictimCacheinfoPayloadSize < current.getVictimCacheinfoPayloadSize then
      deduped
    else current

def recover (compressed existing : VictimCacheinfo) : Option VictimCacheinfo := do
  require (compressed.isDeduped = true)
  require (compressed.isFullyDeduped = false)
  require (existing.isComplete = true)
  return { existing with
    objectSize := compressed.getObjectSize.getD existing.objectSize
    localCachedPopularity :=
      compressed.getLocalCachedPopularity.getD existing.localCachedPopularity
    redirectedCachedPopularity :=
      compressed.getRedirectedCachedPopularity.getD existing.redirectedCachedPopularity
    redirectedCachedReward :=
      compressed.getRedirectedCachedPopularityReward.getD existing.redirectedCachedReward
    localReward := compressed.getLocalReward.getD existing.localReward }

/-- Stable sort in ascending order of the rewards. -/
def sortByLocalRewards (victims : List VictimCacheinfo) : List VictimCacheinfo :=
  victims.insertionSort fun v w => v.localReward ≤ w.localReward

/-- The first victim with the given key. -/
def findVictimCacheinfoForKey (key : Key) (victims : List VictimCacheinfo) :
    Option VictimCacheinfo :=
  KeyedList.find VictimCacheinfo.key key victims

/-! ## Three kinds of cacheinfos -/

theorem bitmap_cases : ∀ bitmap : BitVec 6, LegalBitmap bitmap →
    (bitmap ≠ staleBitmap ∧ bitmap &&& dedupMask = completeBitmap &&& dedupMask →
      bitmap = completeBitmap) ∧
    (bitmap ≠ staleBitmap → ¬ Has bitmap dedupMask → bitmap = completeBitmap) := by
  decide +kernel

variable {v : VictimCacheinfo}

theorem bitmap_of_isComplete (h : v.isComplete = true) :
    v.dedupBitmap = completeBitmap := by
  rw [isComplete, Bool.and_eq_true, bne_iff_ne, decide_eq_true_eq] at h
  exact (bitmap_cases _ v.bitmap_wf).1 h

theorem isComplete_of_bitmap (h : v.dedupBitmap = completeBitmap) :
    v.isComplete = true := by
  rw [isComplete, h]
  decide

/-- A cacheinfo is complete, stale or deduplicated. -/
theorem isDeduped_of_not (hcomplete : v.isComplete = false) (hstale : v.isStale = false) :
    v.isDeduped = true := by
  have hne : v.dedupBitmap ≠ staleBitmap := by simpa [isStale] using hstale
  rw [isDeduped, Bool.and_eq_true, bne_iff_ne, decide_eq_true_eq]
  refine ⟨hne, ?_⟩
  by_contra hnot
  have hzero := (bitmap_cases _ v.bitmap_wf).2 hne hnot
  rw [isComplete_of_bitmap hzero] at hcomplete
  cases hcomplete

theorem isStale_of_isComplete (h : v.isComplete = true) :
    v.isStale = false := by
  rw [isStale, bitmap_of_isComplete h]
  decide

@[simp] theorem isComplete_create (key : Key) (objectSize : Nat)
    (localCachedPopularity redirectedCachedPopularity : Popularity)
    (localReward redirectedCachedReward : Reward) :
    (create key objectSize localCachedPopularity redirectedCachedPopularity localReward
      redirectedCachedReward).isComplete = true :=
  isComplete_of_bitmap rfl

@[simp] theorem key_markStale (v : VictimCacheinfo) : v.markStale.key = v.key := rfl

@[simp] theorem isStale_markStale (v : VictimCacheinfo) : v.markStale.isStale = true := by
  simp [isStale, markStale]

@[simp] theorem isComplete_markStale (v : VictimCacheinfo) : v.markStale.isComplete = false := by
  simp [isComplete, markStale]

/-! ## The round trip -/

/-- A field of a message against the current and the previous value: present with the current
value, or dropped because the two values passed for equal. -/
def FieldOf {α : Type} (field : Option α) (current : α) (same : Prop) : Prop :=
  field = some current ∨ (field = none ∧ same)

/-- The fields of a deduplicated cacheinfo. -/
structure DedupOf (current prev d : VictimCacheinfo) : Prop where
  key_eq : d.key = current.key
  not_stale : d.isStale = false
  complete : d.isComplete = true → d = current
  objectSize : FieldOf d.getObjectSize current.objectSize (current.objectSize = prev.objectSize)
  localCachedPopularity : FieldOf d.getLocalCachedPopularity current.localCachedPopularity
    (isApproxEqual current.localCachedPopularity prev.localCachedPopularity = true)
  redirectedCachedPopularity : FieldOf d.getRedirectedCachedPopularity
    current.redirectedCachedPopularity
    (isApproxEqual current.redirectedCachedPopularity prev.redirectedCachedPopularity = true)
  localReward : FieldOf d.getLocalReward current.localReward
    (isApproxEqual current.localReward prev.localReward = true)
  fully : d.isFullyDeduped = true → d.getObjectSize = none ∧ d.getLocalCachedPopularity = none ∧
    d.getRedirectedCachedPopularity = none ∧ d.getLocalReward = none

variable {current : VictimCacheinfo}

theorem dedupOf_self (h : current.isComplete = true) (prev : VictimCacheinfo) :
    DedupOf current prev current := by
  have hbitmap := bitmap_of_isComplete h
  constructor
  · rfl
  · exact isStale_of_isComplete h
  · exact fun _ => rfl
  · exact .inl (by rw [getObjectSize, hbitmap]; rfl)
  · exact .inl (by rw [getLocalCachedPopularity, hbitmap]; rfl)
  · exact .inl (by rw [getRedirectedCachedPopularity, hbitmap]; rfl)
  · exact .inl (by rw [getLocalReward, hbitmap]; rfl)
  · intro hfully
    rw [isFullyDeduped, hbitmap] at hfully
    exact absurd hfully (by decide)

theorem dedupOf_dedupFields (h : current.isComplete = true) (prev : VictimCacheinfo) :
    DedupOf current prev (dedupFields current prev) := by
  have hbitmap := bitmap_of_isComplete h
  -- one case for each subset of the four fields; each leaves a closed bitmap
  by_cases hsize : current.objectSize = prev.objectSize <;>
  by_cases hlocal :
      isApproxEqual current.localCachedPopularity prev.localCachedPopularity = true <;>
  by_cases hredirected : isApproxEqual current.redirectedCachedPopularity
    prev.redirectedCachedPopularity = true <;>
  by_cases hreward : isApproxEqual current.localReward prev.localReward = true <;>
  constructor <;>
  simp [dedupFields, hsize, hlocal, hredirected, hreward, dedupObjectSize,
    dedupLocalCachedPopularity, dedupRedirectedCachedPopularity, dedupLocalReward, hbitmap,
    completeBitmap, dedupMask, staleBitmap, objectSizeDedupMask, localCachedPopularityDedupMask,
    redirectedCachedPopularityDedupMask, localRewardDedupMask, Has, FieldOf, isStale, isComplete,
    isFullyDeduped, getObjectSize, getLocalCachedPopularity, getRedirectedCachedPopularity,
    getLocalReward]

/-- Deduplication of complete cacheinfos does not abort and drops only fields that passed for
equal. -/
theorem dedup_spec {prev : VictimCacheinfo} (hcur : current.isComplete = true)
    (hprev : prev.isComplete = true) :
    ∃ d, dedup current prev = some d ∧ DedupOf current prev d := by
  simp only [dedup, require_bind hcur, require_bind hprev, Option.pure_def]
  refine ⟨_, rfl, ?_⟩
  split
  · exact dedupOf_dedupFields hcur prev
  · exact dedupOf_self hcur prev

/-- What a receiver is told about a victim, without its reward. -/
def contents (v : VictimCacheinfo) : Key × Nat × Popularity × Popularity :=
  (v.key, v.objectSize, v.localCachedPopularity, v.redirectedCachedPopularity)

/-- What a receiver is told about a victim. -/
def report (v : VictimCacheinfo) : (Key × Nat × Popularity × Popularity) × Reward :=
  (v.contents, v.localReward)

/-- The approximate comparison is exact for the two values. -/
def Exact (x y : ℚ) : Prop := isApproxEqual x y = true → x = y

instance (x y : ℚ) : Decidable (Exact x y) := inferInstanceAs (Decidable (_ → _))

/-- Recovery against anything that shows the same as the previous cacheinfo shows the same as the
current one. -/
def Tracks {β : Type} (g : VictimCacheinfo → β) (current prev : VictimCacheinfo) : Prop :=
  ∀ d existing, DedupOf current prev d → g existing = g prev →
    (d.isFullyDeduped = true → g existing = g current) ∧
    ∀ r, recover d existing = some r → g r = g current

theorem getD_of_fieldOf {α : Type} {field : Option α} {current existing : α} {same : Prop}
    (hfield : FieldOf field current same) (hsame : same → existing = current) :
    field.getD existing = current := by
  rcases hfield with rfl | ⟨rfl, h⟩
  · rfl
  · exact hsame h

theorem eq_of_fieldOf_none {α : Type} {field : Option α} {current : α} {same : Prop}
    (hfield : FieldOf field current same) (hnone : field = none) : same := by
  rcases hfield with rfl | ⟨-, h⟩
  · cases hnone
  · exact h

variable {d existing : VictimCacheinfo}

theorem recover_eq_some {r : VictimCacheinfo} (h : recover d existing = some r) :
    d.isDeduped = true ∧ d.isFullyDeduped = false ∧ existing.isComplete = true ∧
    r.key = existing.key ∧ r.dedupBitmap = existing.dedupBitmap ∧
    r.objectSize = d.getObjectSize.getD existing.objectSize ∧
    r.localCachedPopularity = d.getLocalCachedPopularity.getD existing.localCachedPopularity ∧
    r.redirectedCachedPopularity =
      d.getRedirectedCachedPopularity.getD existing.redirectedCachedPopularity ∧
    r.localReward = d.getLocalReward.getD existing.localReward := by
  simp only [recover, require_bind_iff] at h
  obtain ⟨hdeduped, hfully, hexisting, hr⟩ := h
  cases hr
  exact ⟨hdeduped, hfully, hexisting, rfl, rfl, rfl, rfl, rfl, rfl⟩

theorem recover_isSome (hdeduped : d.isDeduped = true) (hfully : d.isFullyDeduped = false)
    (hexisting : existing.isComplete = true) :
    ∃ r, recover d existing = some r := by
  simp only [recover, require_bind hdeduped, require_bind hfully, require_bind hexisting]
  exact ⟨_, rfl⟩

theorem isComplete_recover {r : VictimCacheinfo} (h : recover d existing = some r) :
    r.isComplete = true := by
  obtain ⟨-, -, hexisting, -, hbitmap, -⟩ := recover_eq_some h
  apply isComplete_of_bitmap
  rw [hbitmap, bitmap_of_isComplete hexisting]

section Tracks

variable {current prev : VictimCacheinfo}

section Tracks

variable (hkey : current.key = prev.key)
  (hlocal : Exact current.localCachedPopularity prev.localCachedPopularity)
  (hredirected : Exact current.redirectedCachedPopularity prev.redirectedCachedPopularity)
include hkey hlocal hredirected

theorem tracks_contents : Tracks contents current prev := by
  intro d existing hd hsame
  simp only [contents, Prod.mk.injEq] at hsame ⊢
  obtain ⟨hk, hs, hl, hr⟩ := hsame
  constructor
  · intro hfully
    obtain ⟨hsize, hpop, hredir, -⟩ := hd.fully hfully
    refine ⟨hk.trans hkey.symm, ?_, ?_, ?_⟩
    · exact hs.trans (eq_of_fieldOf_none hd.objectSize hsize).symm
    · exact hl.trans (hlocal (eq_of_fieldOf_none hd.localCachedPopularity hpop)).symm
    · exact hr.trans (hredirected (eq_of_fieldOf_none hd.redirectedCachedPopularity hredir)).symm
  · intro r hrecover
    obtain ⟨-, -, -, hkr, -, hsr, hlr, hrr, -⟩ := recover_eq_some hrecover
    refine ⟨hkr.trans (hk.trans hkey.symm), hsr.trans ?_, hlr.trans ?_, hrr.trans ?_⟩
    · exact getD_of_fieldOf hd.objectSize fun h => hs.trans h.symm
    · exact getD_of_fieldOf hd.localCachedPopularity fun h => hl.trans (hlocal h).symm
    · exact getD_of_fieldOf hd.redirectedCachedPopularity fun h => hr.trans (hredirected h).symm

theorem tracks_report
    (hreward : Exact current.localReward prev.localReward) : Tracks report current prev := by
  intro d existing hd hsame
  simp only [report, Prod.mk.injEq] at hsame ⊢
  obtain ⟨hfully, hrecover⟩ := tracks_contents hkey hlocal hredirected d existing hd hsame.1
  constructor
  · intro h
    obtain ⟨-, -, -, hnone⟩ := hd.fully h
    exact ⟨hfully h, hsame.2.trans (hreward (eq_of_fieldOf_none hd.localReward hnone)).symm⟩
  · intro r hr
    obtain ⟨-, -, -, -, -, -, -, -, hrr⟩ := recover_eq_some hr
    refine ⟨hrecover r hr, hrr.trans ?_⟩
    exact getD_of_fieldOf hd.localReward fun h => hsame.2.trans (hreward h).symm

end Tracks

end Tracks

/-! ## Sorting -/

theorem perm_sortByLocalRewards (victims : List VictimCacheinfo) :
    (sortByLocalRewards victims).Perm victims :=
  List.perm_insertionSort _ _

theorem ascending_sortByLocalRewards (victims : List VictimCacheinfo) :
    Ascending localReward (sortByLocalRewards victims) := by
  have : Std.Total fun v w : VictimCacheinfo => v.localReward ≤ w.localReward :=
    ⟨fun v w => le_total _ _⟩
  have : IsTrans VictimCacheinfo fun v w => v.localReward ≤ w.localReward :=
    ⟨fun _ _ _ => le_trans⟩
  exact List.pairwise_insertionSort (fun v w : VictimCacheinfo => v.localReward ≤ w.localReward)
    victims

end VictimCacheinfo

end Covered.Victim
