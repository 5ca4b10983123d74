import Covered.Victim.SyncsetRoundTrip

/-!
# Monitor of the victim synchronization with one neighbor

Each edge has one monitor for each neighbor. As a sender it numbers the syncsets for the neighbor
and compresses each against the previous one. As a receiver it tracks the sequence number of the
last syncset it has reconstructed, buffers compressed syncsets that arrive ahead of it, and asks the
neighbor for a complete syncset when the buffer is full: it sets a flag that the next syncset to
the neighbor carries, and waits for a complete syncset with a larger sequence number than it has
seen.

`receive` is what the monitor does with a syncset of the neighbor. `receive_cases` says what a
successful receipt leaves behind, for any property of reconstructions that recovery keeps, and
`receive_isSome` when a receipt succeeds.
-/

set_option autoImplicit false

namespace Covered.Victim

open Common Lib Lib.Checked List VictimSyncset
open Option hiding bind_eq_some_iff

/-- State of the synchronization with one neighbor: the first three fields as a sender, the others
as a receiver. -/
structure VictimsyncMonitor where
  curSeqnum : Nat := 0
  prevVictimSyncset : Option VictimSyncset := none
  needEnforcement : Bool := false
  isFirstCompleteReceived : Bool := true
  trackedSeqnum : Nat := 0
  cachedVictimSyncsets : List VictimSyncset := []
  enforcementSeqnum : Nat := 0
  waitForCompleteVictimSyncset : Bool := false

namespace VictimsyncMonitor

/-! ## As a sender -/

/-- The next syncset is sent complete. -/
def enforceComplete (m : VictimsyncMonitor) : VictimsyncMonitor :=
  { m with prevVictimSyncset := none }

/-- The sequence number of the next syncset. -/
def getCurSeqnum (m : VictimsyncMonitor) : Option Nat :=
  match m.prevVictimSyncset with
  | none => some m.curSeqnum
  | some prev => do
      let next ← uint64Add prev.seqnum 1
      require (m.curSeqnum = next)
      return m.curSeqnum

/-- The syncset to send for the current complete one, compressed if there is a previous one. -/
def compressForSync (prev : Option VictimSyncset) (current : VictimSyncset) :
    Option VictimSyncset :=
  match prev with
  | none => some current
  | some p => do
      require (p.isComplete = true)
      VictimSyncset.compress current p

/-- Number the current complete syncset, attach the flag, compress, and keep it as the previous
one. Returns the syncset to send. -/
def replacePrevVictimSyncset (m : VictimsyncMonitor) (current : VictimSyncset) :
    Option (VictimsyncMonitor × VictimSyncset) := do
  require (current.isComplete = true)
  let finalSeqnum ← m.getCurSeqnum
  let nextSeqnum ← uint64Add m.curSeqnum 1
  let numbered := (current.setSeqnum finalSeqnum).setEnforceComplete m.needEnforcement
  let final ← compressForSync m.prevVictimSyncset numbered
  return ({ m with
    curSeqnum := nextSeqnum
    needEnforcement := false
    prevVictimSyncset := some numbered }, final)

/-! ## As a receiver -/

def clearFirstCompleteReceived (m : VictimsyncMonitor) : Option VictimsyncMonitor := do
  require (m.trackedSeqnum = 0)
  return { m with isFirstCompleteReceived := false }

def clearStaleCachedVictimSyncsets (m : VictimsyncMonitor) (peredgeMonitoredVictimsetcnt : Nat) :
    Option VictimsyncMonitor := do
  require (m.cachedVictimSyncsets.length ≤ peredgeMonitoredVictimsetcnt)
  return { m with
    cachedVictimSyncsets := m.cachedVictimSyncsets.filter fun s => m.trackedSeqnum < s.seqnum }

/-- One pass over the buffer: the first syncset that continues the tracked one, and the buffer
without it. -/
def findContinuous (trackedSeqnum : Nat) :
    List VictimSyncset → Option (Option (VictimSyncset × List VictimSyncset))
  | [] => some none
  | s :: rest => do
      require (s.isCompressed = true)
      require (s.seqnum > trackedSeqnum)
      let next ← uint64Add trackedSeqnum 1
      if s.seqnum = next then return some (s, rest)
      else do
        let found ← findContinuous trackedSeqnum rest
        return found.map fun pair => (pair.1, s :: pair.2)

/-- The passes over the buffer. Each pass but the last takes a syncset out, so the length of the
buffer bounds their number. Returns the buffer and the last syncset recovered. -/
def clearContinuousLoop : Nat → VictimSyncset → List VictimSyncset →
    Option (List VictimSyncset × VictimSyncset)
  | 0, complete, cached => some (cached, complete)
  | n + 1, complete, cached => do
      match ← findContinuous complete.seqnum cached with
      | none => return (cached, complete)
      | some (s, rest) => do
          let recovered ← VictimSyncset.recover s complete
          require (recovered.isComplete = true)
          require (recovered.seqnum = s.seqnum)
          clearContinuousLoop n recovered rest

/-- Apply the buffered syncsets that continue the complete one. The source returns whether there
are any and the last syncset recovered; here the complete one itself is returned if there are
none. -/
def clearContinuousCachedVictimSyncsets (m : VictimsyncMonitor) (complete : VictimSyncset)
    (peredgeMonitoredVictimsetcnt : Nat) : Option (VictimsyncMonitor × VictimSyncset) := do
  require (complete.isComplete = true)
  require (m.trackedSeqnum = complete.seqnum)
  require (m.cachedVictimSyncsets.length ≤ peredgeMonitoredVictimsetcnt)
  let (cached, final) ←
    clearContinuousLoop m.cachedVictimSyncsets.length complete m.cachedVictimSyncsets
  return ({ m with cachedVictimSyncsets := cached, trackedSeqnum := final.seqnum }, final)

/-- The waiting ends when the tracked sequence number has passed the one of the enforcement. -/
def clearEnforcement (m : VictimsyncMonitor) : VictimsyncMonitor :=
  if m.waitForCompleteVictimSyncset = true ∧ m.trackedSeqnum > m.enforcementSeqnum then
    { m with
      needEnforcement := false
      enforcementSeqnum := 0
      waitForCompleteVictimSyncset := false }
  else m

/-- Track a complete syncset and what continues it. -/
def tryToClearEnforcementStatus (m : VictimsyncMonitor) (complete : VictimSyncset)
    (syncedSeqnum peredgeMonitoredVictimsetcnt : Nat) :
    Option (VictimsyncMonitor × VictimSyncset) := do
  require (complete.isComplete = true)
  require (complete.seqnum = syncedSeqnum)
  let m₁ ← clearStaleCachedVictimSyncsets { m with trackedSeqnum := syncedSeqnum }
    peredgeMonitoredVictimsetcnt
  let (m₂, final) ← m₁.clearContinuousCachedVictimSyncsets complete peredgeMonitoredVictimsetcnt
  require (m₂.trackedSeqnum ≥ syncedSeqnum)
  return (m₂.clearEnforcement, final)

def getMaxSeqnumFromCachedVictimSyncsets (m : VictimsyncMonitor)
    (peredgeMonitoredVictimsetcnt : Nat) : Option Nat := do
  require (m.cachedVictimSyncsets.length ≤ peredgeMonitoredVictimsetcnt)
  return (m.cachedVictimSyncsets.map VictimSyncset.seqnum).foldl max 0

/-- Buffer a compressed syncset, or start to wait for a complete one if the buffer is full. -/
def tryToEnableEnforcementStatus (m : VictimsyncMonitor) (compressed : VictimSyncset)
    (syncedSeqnum peredgeMonitoredVictimsetcnt : Nat) : Option VictimsyncMonitor := do
  require (compressed.isCompressed = true)
  require (compressed.seqnum = syncedSeqnum)
  if m.cachedVictimSyncsets.length < peredgeMonitoredVictimsetcnt then
    return { m with cachedVictimSyncsets := m.cachedVictimSyncsets ++ [compressed] }
  else if m.waitForCompleteVictimSyncset = false then do
    let maxSeqnum ← m.getMaxSeqnumFromCachedVictimSyncsets peredgeMonitoredVictimsetcnt
    require (m.needEnforcement = false)
    return { m with
      enforcementSeqnum := if syncedSeqnum ≥ maxSeqnum then syncedSeqnum else maxSeqnum
      waitForCompleteVictimSyncset := true
      needEnforcement := true }
  else return m

/-- Bytes of the monitor counted for the cache capacity. -/
def getSizeForCapacity (m : VictimsyncMonitor) : Nat :=
  8 + (m.prevVictimSyncset.elim 0 VictimSyncset.getSizeForCapacity) + 1 + 1 + 8 +
    (m.cachedVictimSyncsets.map VictimSyncset.getSizeForCapacity).sum + 8 + 1

/-! ## Receipt of a syncset -/

/-- The complete syncset for one that directly follows the tracked one. -/
def recoverMatched (existing : Option VictimSyncset) (neighbor : VictimSyncset) :
    Option VictimSyncset :=
  if neighbor.isComplete then some neighbor
  else do
    let e ← existing
    require (e.isComplete = true)
    let recovered ← VictimSyncset.recover neighbor e
    require (recovered.isComplete = true)
    return recovered

/-- Track the complete syncset; the last syncset reconstructed from it is to be applied. -/
def track (m : VictimsyncMonitor) (complete : VictimSyncset)
    (syncedSeqnum peredgeMonitoredVictimsetcnt : Nat) :
    Option (VictimsyncMonitor × Option VictimSyncset) := do
  let (m', final) ← m.tryToClearEnforcementStatus complete syncedSeqnum peredgeMonitoredVictimsetcnt
  return (m', some final)

/-- Buffer the compressed syncset; there is nothing to apply. -/
def buffer (m : VictimsyncMonitor) (compressed : VictimSyncset)
    (syncedSeqnum peredgeMonitoredVictimsetcnt : Nat) :
    Option (VictimsyncMonitor × Option VictimSyncset) := do
  let m' ← m.tryToEnableEnforcementStatus compressed syncedSeqnum peredgeMonitoredVictimsetcnt
  return (m', none)

/-- What the monitor does with a syncset of the neighbor, and the complete syncset to apply, if
any. `existing` is the syncset of the neighbor as the tracker has it, with the tracked sequence
number. -/
def receive (m : VictimsyncMonitor) (peredgeMonitoredVictimsetcnt : Nat)
    (existing : Option VictimSyncset) (neighbor : VictimSyncset) :
    Option (VictimsyncMonitor × Option VictimSyncset) :=
  let syncedSeqnum := neighbor.seqnum
  if m.isFirstCompleteReceived then
    if neighbor.isComplete then do
      let m' ← m.clearFirstCompleteReceived
      m'.track neighbor syncedSeqnum peredgeMonitoredVictimsetcnt
    else m.buffer neighbor syncedSeqnum peredgeMonitoredVictimsetcnt
  else if syncedSeqnum ≤ m.trackedSeqnum then some (m, none)
  else do
    let next ← uint64Add m.trackedSeqnum 1
    if syncedSeqnum = next then do
      let complete ← recoverMatched existing neighbor
      m.track complete syncedSeqnum peredgeMonitoredVictimsetcnt
    else if neighbor.isComplete then m.track neighbor syncedSeqnum peredgeMonitoredVictimsetcnt
    else m.buffer neighbor syncedSeqnum peredgeMonitoredVictimsetcnt

/-! ## What a send can do -/

/-- Inversion of a send: the numbered syncset is kept as the previous one, and what is sent is that
syncset itself or its compression against the previous one. -/
theorem replacePrevVictimSyncset_cases {m m' : VictimsyncMonitor} {current final : VictimSyncset}
    (h : m.replacePrevVictimSyncset current = some (m', final)) :
    let numbered := (current.setSeqnum m.curSeqnum).setEnforceComplete m.needEnforcement
    m.curSeqnum + 1 < uint64Limit ∧
    m' = { m with
      curSeqnum := m.curSeqnum + 1
      needEnforcement := false
      prevVictimSyncset := some numbered } ∧
    ((m.prevVictimSyncset = none ∧ final = numbered) ∨
      ∃ prev, m.prevVictimSyncset = some prev ∧ m.curSeqnum = prev.seqnum + 1 ∧
        compress numbered prev = some final) := by
  simp only [replacePrevVictimSyncset, bind_eq_some_iff, require_eq_some_iff] at h
  obtain ⟨-, -, seqnum, hseqnum, next, hnext, final', hfinal, h⟩ := h
  cases h
  have hlimit := uint64Add_lt hnext
  rw [uint64Add_eq_some hnext] at hlimit ⊢
  cases hprev : m.prevVictimSyncset with
  | none =>
    simp only [getCurSeqnum, hprev, some.injEq] at hseqnum
    subst hseqnum
    simp only [compressForSync, hprev, some.injEq] at hfinal
    exact ⟨hlimit, rfl, .inl ⟨rfl, hfinal.symm⟩⟩
  | some prev =>
    simp only [getCurSeqnum, hprev, bind_eq_some_iff, require_eq_some_iff] at hseqnum
    obtain ⟨after, hafter, -, hcur, hseqnum⟩ := hseqnum
    rw [pure_eq_some_iff] at hseqnum
    subst hseqnum
    simp only [compressForSync, hprev, require_bind_iff] at hfinal
    exact ⟨hlimit, rfl, .inr ⟨prev, rfl, hcur.trans (uint64Add_eq_some hafter), hfinal.2⟩⟩

/-! ## Passes over the buffer -/

section Loop

variable {trackedSeqnum : Nat} {cached rest cached' : List VictimSyncset}
  {s complete final : VictimSyncset}

/-- A pass that finds a syncset takes it out. -/
theorem findContinuous_found (h : findContinuous trackedSeqnum cached = some (some (s, rest))) :
    s ∈ cached ∧ s.seqnum = trackedSeqnum + 1 ∧ cached.Perm (s :: rest) ∧
      rest.Sublist cached := by
  induction cached generalizing rest with
  | nil => simp [findContinuous] at h
  | cons t tail ih =>
    simp only [findContinuous, require_bind_iff] at h
    obtain ⟨-, -, h⟩ := h
    obtain ⟨next, hnext, h⟩ := bind_eq_some_iff.1 h
    have hnext' := uint64Add_eq_some hnext
    split at h
    · next heq =>
      cases h
      refine ⟨mem_cons_self, by rw [heq, hnext'], List.Perm.refl _, ?_⟩
      exact sublist_cons_self _ _
    · obtain ⟨found, hfound, h⟩ := bind_eq_some_iff.1 h
      cases found with
      | none => cases h
      | some pair =>
        obtain ⟨s', rest'⟩ := pair
        cases h
        obtain ⟨hmem, hseqnum, hperm, hsub⟩ := ih hfound
        refine ⟨mem_cons_of_mem t hmem, hseqnum, ?_, hsub.cons_cons t⟩
        exact (hperm.cons t).trans (List.Perm.swap _ _ _)

/-- A pass that finds nothing has checked every syncset. -/
theorem findContinuous_none (h : findContinuous trackedSeqnum cached = some none) :
    ∀ t ∈ cached, trackedSeqnum < t.seqnum := by
  induction cached with
  | nil => simp
  | cons t tail ih =>
    simp only [findContinuous, require_bind_iff] at h
    obtain ⟨-, hahead, h⟩ := h
    obtain ⟨next, -, h⟩ := bind_eq_some_iff.1 h
    split at h
    · cases h
    · obtain ⟨found, hfound, h⟩ := bind_eq_some_iff.1 h
      cases found with
      | none =>
        intro u hu
        rcases mem_cons.1 hu with rfl | hu
        · exact hahead
        · exact ih hfound u hu
      | some pair => cases h

theorem findContinuous_isSome (hcompressed : ∀ t ∈ cached, t.isCompressed = true)
    (hahead : ∀ t ∈ cached, trackedSeqnum < t.seqnum) (hlimit : trackedSeqnum + 1 < uint64Limit) :
    ∃ found, findContinuous trackedSeqnum cached = some found := by
  induction cached with
  | nil => exact ⟨none, rfl⟩
  | cons t tail ih =>
    obtain ⟨found, hfound⟩ := ih (fun u hu => hcompressed u (mem_cons_of_mem t hu))
      fun u hu => hahead u (mem_cons_of_mem t hu)
    simp only [findContinuous, require_bind (hcompressed t mem_cons_self),
      require_bind (hahead t mem_cons_self), uint64Add_eq hlimit, some_bind, hfound]
    split
    · exact ⟨_, rfl⟩
    · exact ⟨_, rfl⟩

variable {R : VictimSyncset → Prop}

/-- What the passes leave behind, for any property that recovery from a buffered syncset keeps. -/
theorem clearContinuousLoop_spec {n : Nat} (hn : cached.length ≤ n)
    (hrecover : ∀ t ∈ cached, ∀ b, R b → t.seqnum = b.seqnum + 1 →
      ∃ r, recover t b = some r ∧ R r)
    (hR : R complete) (h : clearContinuousLoop n complete cached = some (cached', final)) :
    R final ∧ complete.seqnum ≤ final.seqnum ∧ cached'.Sublist cached ∧
      ∀ t ∈ cached', final.seqnum < t.seqnum := by
  induction n generalizing complete cached with
  | zero =>
    cases h
    have hnil : cached' = [] := eq_nil_of_length_eq_zero (Nat.le_zero.1 hn)
    subst hnil
    exact ⟨hR, le_refl _, List.Sublist.refl _, by simp⟩
  | succ n ih =>
    simp only [clearContinuousLoop, bind_eq_bind] at h
    obtain ⟨found, hfound, h⟩ := bind_eq_some_iff.1 h
    cases found with
    | none =>
      cases h
      exact ⟨hR, le_refl _, List.Sublist.refl _, findContinuous_none hfound⟩
    | some pair =>
      obtain ⟨t, rest⟩ := pair
      obtain ⟨hmem, hseqnum, hperm, hsub⟩ := findContinuous_found hfound
      obtain ⟨r, hr, hRr⟩ := hrecover t hmem complete hR hseqnum
      simp only [hr, bind_some, require_bind_eq_some_iff] at h
      obtain ⟨-, hsame, h⟩ := h
      have hlength := hperm.length_eq
      rw [length_cons] at hlength
      obtain ⟨hfinal, hle, hsub', hahead⟩ :=
        ih (by omega) (fun u hu => hrecover u (hsub.subset hu)) hRr h
      exact ⟨hfinal, by omega, hsub'.trans hsub, hahead⟩

/-- The passes succeed if no two buffered syncsets have the same sequence number. -/
theorem clearContinuousLoop_isSome (hcompressed : ∀ t ∈ cached, t.isCompressed = true)
    (hahead : ∀ t ∈ cached, complete.seqnum < t.seqnum)
    (hdistinct : KeyedList.NodupKeys seqnum cached)
    (hrecover : ∀ t ∈ cached, ∀ b, R b → t.seqnum = b.seqnum + 1 →
      ∃ r, recover t b = some r ∧ R r)
    (hwf : ∀ b, R b → b.isComplete = true ∧ b.seqnum + 1 < uint64Limit)
    (hseqnum : ∀ t b r, R b → recover t b = some r → r.seqnum = t.seqnum)
    (hR : R complete) (n : Nat) :
    ∃ result, clearContinuousLoop n complete cached = some result := by
  induction n generalizing complete cached with
  | zero => exact ⟨_, rfl⟩
  | succ n ih =>
    obtain ⟨found, hfound⟩ := findContinuous_isSome hcompressed hahead (hwf complete hR).2
    simp only [clearContinuousLoop, bind_eq_bind, hfound, bind_some]
    cases found with
    | none => exact ⟨_, rfl⟩
    | some pair =>
      obtain ⟨t, rest⟩ := pair
      obtain ⟨hmem, hnext, hperm, hsub⟩ := findContinuous_found hfound
      obtain ⟨r, hr, hRr⟩ := hrecover t hmem complete hR hnext
      have hsame := hseqnum t complete r hR hr
      simp only [hr, bind_some, require_bind_of (hwf r hRr).1, require_bind_of hsame]
      have hnodup := hdistinct.perm hperm
      rw [KeyedList.NodupKeys, map_cons, nodup_cons] at hnodup
      apply ih
      · exact fun u hu => hcompressed u (hsub.subset hu)
      · -- the remaining ones are ahead of the one taken out, since they differ from it
        intro u hu
        have hlt := hahead u (hsub.subset hu)
        have hne : u.seqnum ≠ t.seqnum := by
          intro heq
          exact hnodup.1 (heq ▸ mem_map_of_mem hu)
        omega
      · exact hnodup.2
      · exact fun u hu => hrecover u (hsub.subset hu)
      · exact hRr

/-- The passes take syncsets out of the buffer and add none. -/
theorem subset_of_clearContinuousLoop {n : Nat}
    (h : clearContinuousLoop n complete cached = some (cached', final)) : cached' ⊆ cached := by
  induction n generalizing complete cached with
  | zero =>
    cases h
    exact List.Subset.refl _
  | succ n ih =>
    simp only [clearContinuousLoop, bind_eq_bind] at h
    obtain ⟨found, hfound, h⟩ := bind_eq_some_iff.1 h
    cases found with
    | none =>
      cases h
      exact List.Subset.refl _
    | some pair =>
      obtain ⟨s, rest⟩ := pair
      obtain ⟨-, -, -, hsub⟩ := findContinuous_found hfound
      simp only [Option.bind_eq_some_iff, require_eq_some_iff] at h
      obtain ⟨recovered, -, -, -, -, -, hrest⟩ := h
      exact List.Subset.trans (ih hrest) hsub.subset

end Loop

/-! ## What a receipt can do -/

/-- The receiver part of a monitor between two receipts. -/
structure Receptive (cnt : Nat) (m : VictimsyncMonitor) : Prop where
  bound : m.cachedVictimSyncsets.length ≤ cnt
  compressed : ∀ s ∈ m.cachedVictimSyncsets, s.isCompressed = true
  ahead : ∀ s ∈ m.cachedVictimSyncsets, m.trackedSeqnum < s.seqnum
  first : m.isFirstCompleteReceived = true → m.trackedSeqnum = 0
  flag : m.needEnforcement = true → m.waitForCompleteVictimSyncset = true
  waiting : m.waitForCompleteVictimSyncset = true → m.trackedSeqnum ≤ m.enforcementSeqnum

theorem receptive_default (cnt : Nat) : Receptive cnt {} := by
  constructor <;> simp

/-- The outcomes of a receipt: the monitor after it and the complete syncset to apply, if any. -/
inductive Receipt (R : VictimSyncset → Prop) (cnt : Nat) (m : VictimsyncMonitor)
    (neighbor : VictimSyncset) : VictimsyncMonitor → Option VictimSyncset → Prop
  | outdated (hfirst : m.isFirstCompleteReceived = false)
      (hle : neighbor.seqnum ≤ m.trackedSeqnum) : Receipt R cnt m neighbor m none
  | applied (cached : List VictimSyncset) (final : VictimSyncset)
      (hnew : m.isFirstCompleteReceived = true ∨ m.trackedSeqnum < neighbor.seqnum)
      (hkind : neighbor.isComplete = true ∨ m.isFirstCompleteReceived = false)
      (hR : R final) (hle : neighbor.seqnum ≤ final.seqnum)
      (hsub : cached.Sublist m.cachedVictimSyncsets)
      (hahead : ∀ s ∈ cached, final.seqnum < s.seqnum) :
      Receipt R cnt m neighbor
        (clearEnforcement { m with
          isFirstCompleteReceived := false
          cachedVictimSyncsets := cached
          trackedSeqnum := final.seqnum }) (some final)
  | buffered (hcompressed : neighbor.isCompressed = true)
      (hahead : m.trackedSeqnum < neighbor.seqnum)
      (hgap : m.isFirstCompleteReceived = true ∨ m.trackedSeqnum + 1 < neighbor.seqnum)
      (hspace : m.cachedVictimSyncsets.length < cnt) :
      Receipt R cnt m neighbor
        { m with cachedVictimSyncsets := m.cachedVictimSyncsets ++ [neighbor] } none
  | enforced (enforcementSeqnum : Nat) (hcompressed : neighbor.isCompressed = true)
      (hahead : m.trackedSeqnum < neighbor.seqnum)
      (hfull : cnt ≤ m.cachedVictimSyncsets.length)
      (hwait : m.waitForCompleteVictimSyncset = false)
      (hseen : enforcementSeqnum = neighbor.seqnum ∨
        ∃ s ∈ m.cachedVictimSyncsets, enforcementSeqnum = s.seqnum)
      (hge : neighbor.seqnum ≤ enforcementSeqnum) :
      Receipt R cnt m neighbor
        { m with
          enforcementSeqnum := enforcementSeqnum
          waitForCompleteVictimSyncset := true
          needEnforcement := true } none
  | waited (hcompressed : neighbor.isCompressed = true)
      (hahead : m.trackedSeqnum < neighbor.seqnum)
      (hfull : cnt ≤ m.cachedVictimSyncsets.length)
      (hwait : m.waitForCompleteVictimSyncset = true) : Receipt R cnt m neighbor m none

section Receive

variable {R : VictimSyncset → Prop} {cnt syncedSeqnum : Nat} {m m' : VictimsyncMonitor}
  {neighbor complete : VictimSyncset} {existing out : Option VictimSyncset}

theorem foldl_max_mem (l : List Nat) (a : Nat) : l.foldl max a = a ∨ l.foldl max a ∈ l := by
  induction l generalizing a with
  | nil => exact .inl rfl
  | cons b rest ih =>
    rw [foldl_cons]
    rcases ih (max a b) with h | h
    · rw [h]
      rcases max_choice a b with hmax | hmax
      · exact .inl hmax
      · rw [hmax]
        exact .inr mem_cons_self
    · exact .inr (mem_cons_of_mem b h)

theorem track_cases
    (hrecover : ∀ t ∈ m.cachedVictimSyncsets, ∀ b, R b → t.seqnum = b.seqnum + 1 →
      ∃ r, recover t b = some r ∧ R r)
    (hR : R complete) (h : m.track complete syncedSeqnum cnt = some (m', out)) :
    ∃ cached final, out = some final ∧ m' = clearEnforcement { m with
        cachedVictimSyncsets := cached
        trackedSeqnum := final.seqnum } ∧ R final ∧ syncedSeqnum ≤ final.seqnum ∧
      cached.Sublist m.cachedVictimSyncsets ∧ ∀ s ∈ cached, final.seqnum < s.seqnum := by
  simp only [track, tryToClearEnforcementStatus, clearStaleCachedVictimSyncsets,
    clearContinuousCachedVictimSyncsets, bind_eq_some_iff, require_eq_some_iff, pure_eq_some_iff,
    Prod.mk.injEq, Prod.exists] at h
  obtain ⟨m₁, final, ⟨-, -, -, hseqnum, m₀, ⟨-, -, rfl⟩, m₂, final', ⟨-, -, -, -, -, -, cached,
    final'', hloop, rfl, rfl⟩, -, -, rfl, rfl⟩, rfl, rfl⟩ := h
  have hsub := filter_sublist (l := m.cachedVictimSyncsets)
    (p := fun s => decide (syncedSeqnum < s.seqnum))
  obtain ⟨hfinal, hle, hsub', hahead⟩ := clearContinuousLoop_spec (le_refl _)
    (fun t ht => hrecover t (hsub.subset ht)) hR hloop
  exact ⟨cached, final'', rfl, rfl, hfinal, hseqnum ▸ hle, hsub'.trans hsub, hahead⟩

theorem buffer_cases (hahead : m.trackedSeqnum < neighbor.seqnum)
    (hgap : m.isFirstCompleteReceived = true ∨ m.trackedSeqnum + 1 < neighbor.seqnum)
    (h : m.buffer neighbor neighbor.seqnum cnt = some (m', out)) :
    Receipt R cnt m neighbor m' out := by
  simp only [buffer, tryToEnableEnforcementStatus, bind_eq_bind] at h
  obtain ⟨m₁, h₁, h⟩ := bind_eq_some_iff.1 h
  cases h
  simp only [require_bind_eq_some_iff] at h₁
  obtain ⟨hcompressed, -, h₁⟩ := h₁
  split at h₁
  · next hspace =>
    cases h₁
    exact .buffered hcompressed hahead hgap hspace
  · next hfull =>
    rw [not_lt] at hfull
    split at h₁
    · next hwait =>
      simp only [getMaxSeqnumFromCachedVictimSyncsets, bind_eq_bind] at h₁
      obtain ⟨maxSeqnum, hmax, h₁⟩ := bind_eq_some_iff.1 h₁
      simp only [require_bind_eq_some_iff] at hmax h₁
      obtain ⟨-, hmax⟩ := hmax
      rw [pure_eq_some_iff] at hmax
      obtain ⟨-, h₁⟩ := h₁
      cases h₁
      refine .enforced _ hcompressed hahead hfull hwait ?_ ?_
      · split
        · exact .inl rfl
        · next hlt =>
          rcases foldl_max_mem (m.cachedVictimSyncsets.map seqnum) 0 with hzero | hmem
          · omega
          · obtain ⟨s, hs, heq⟩ := mem_map.1 hmem
            exact .inr ⟨s, hs, by rw [← hmax, heq]⟩
      · split <;> omega
    · next hwait =>
      cases h₁
      exact .waited hcompressed hahead hfull (by simpa using hwait)

theorem isCompressed_of_not_isComplete {s : VictimSyncset} (h : ¬ s.isComplete = true) :
    s.isCompressed = true := by
  rw [isComplete_eq_not_isCompressed] at h
  simpa using h

/-- Inversion of a receipt. `R` is any property of complete syncsets that holds of what is
received complete and of what is recovered from something with the property. -/
theorem receive_cases (hm : Receptive cnt m)
    (hrecover : ∀ t ∈ m.cachedVictimSyncsets, ∀ b, R b → t.seqnum = b.seqnum + 1 →
      ∃ r, recover t b = some r ∧ R r)
    (hcomplete : neighbor.isComplete = true → R neighbor)
    (hpositive : neighbor.isCompressed = true → 0 < neighbor.seqnum)
    (hmatched : neighbor.isCompressed = true → m.isFirstCompleteReceived = false →
      neighbor.seqnum = m.trackedSeqnum + 1 → ∃ e r, existing = some e ∧ e.isComplete = true ∧
        recover neighbor e = some r ∧ r.isComplete = true ∧ R r)
    (h : m.receive cnt existing neighbor = some (m', out)) : Receipt R cnt m neighbor m' out := by
  unfold receive at h
  cases hfirst : m.isFirstCompleteReceived with
  | true =>
    by_cases hkind : neighbor.isComplete = true
    · simp only [hfirst, hkind, if_true, clearFirstCompleteReceived, bind_eq_bind] at h
      obtain ⟨m₁, h₁, h⟩ := bind_eq_some_iff.1 h
      rw [require_bind_eq_some_iff] at h₁
      obtain ⟨-, h₁⟩ := h₁
      cases h₁
      obtain ⟨cached, final, rfl, rfl, hR, hle, hsub, hahead⟩ :=
        track_cases (m := { m with isFirstCompleteReceived := false }) hrecover (hcomplete hkind) h
      exact .applied cached final (.inl hfirst) (.inl hkind) hR hle hsub hahead
    · have hcompressed := isCompressed_of_not_isComplete hkind
      simp only [hfirst, hkind, if_true, Bool.false_eq_true, if_false] at h
      have hpos := hpositive hcompressed
      exact buffer_cases (by rw [hm.first hfirst]; exact hpos) (.inl hfirst) h
  | false =>
    simp only [hfirst, Bool.false_eq_true, if_false] at h
    split at h
    · next hle =>
      cases h
      exact .outdated hfirst hle
    · next hlt =>
      rw [not_le] at hlt
      obtain ⟨next, hnext, h⟩ := bind_eq_some_iff.1 h
      have hnext' := uint64Add_eq_some hnext
      have hset : m = { m with isFirstCompleteReceived := false } := by rw [← hfirst]
      split at h
      · next heq =>
        -- the syncset directly follows the tracked one
        obtain ⟨complete, hrec, h⟩ := bind_eq_some_iff.1 h
        have hRc : R complete := by
          unfold recoverMatched at hrec
          split at hrec
          · next hkind =>
            cases hrec
            exact hcomplete hkind
          · next hkind =>
            obtain ⟨e, r, he, hec, hr, hrc, hRr⟩ := hmatched
              (isCompressed_of_not_isComplete hkind) hfirst (by rw [heq, hnext'])
            simp only [he, some_bind, require_bind hec, hr, require_bind hrc] at hrec
            cases hrec
            exact hRr
        obtain ⟨cached, final, rfl, rfl, hR, hle, hsub, hahead⟩ := track_cases hrecover hRc h
        rw [hset]
        exact .applied cached final (.inr hlt) (.inr rfl) hR hle hsub hahead
      · next hne =>
        split at h
        · next hkind =>
          obtain ⟨cached, final, rfl, rfl, hR, hle, hsub, hahead⟩ :=
            track_cases hrecover (hcomplete hkind) h
          rw [hset]
          exact .applied cached final (.inr hlt) (.inl hkind) hR hle hsub hahead
        · exact buffer_cases hlt (.inr (by omega)) h

/-- A receipt keeps the receiver part of a monitor in order. -/
theorem Receipt.receptive (hm : Receptive cnt m) (h : Receipt R cnt m neighbor m' out) :
    Receptive cnt m' := by
  cases h with
  | outdated => exact hm
  | waited => exact hm
  | applied cached final hnew hkind hR hle hsub hahead =>
    have hmid : Receptive cnt (clearEnforcement { m with
        isFirstCompleteReceived := false
        cachedVictimSyncsets := cached
        trackedSeqnum := final.seqnum }) := by
      unfold clearEnforcement
      split
      · constructor
        · exact le_trans hsub.length_le hm.bound
        · exact fun s hs => hm.compressed s (hsub.subset hs)
        · exact hahead
        · exact fun h => Bool.noConfusion h
        · exact fun h => Bool.noConfusion h
        · exact fun h => Bool.noConfusion h
      · next hnot =>
        constructor
        · exact le_trans hsub.length_le hm.bound
        · exact fun s hs => hm.compressed s (hsub.subset hs)
        · exact hahead
        · exact fun h => Bool.noConfusion h
        · exact hm.flag
        · intro hwait
          by_contra hlt
          exact hnot ⟨hwait, not_le.1 hlt⟩
    exact hmid
  | buffered hcompressed hahead hgap hspace =>
    constructor
    · rw [length_append]
      exact hspace
    · intro s hs
      rcases mem_append.1 hs with hs | hs
      · exact hm.compressed s hs
      · rw [mem_singleton.1 hs]
        exact hcompressed
    · intro s hs
      rcases mem_append.1 hs with hs | hs
      · exact hm.ahead s hs
      · rw [mem_singleton.1 hs]
        exact hahead
    · exact hm.first
    · exact hm.flag
    · exact hm.waiting
  | enforced enforcementSeqnum hcompressed hahead hfull hwait hseen hge =>
    constructor
    · exact hm.bound
    · exact hm.compressed
    · exact hm.ahead
    · exact hm.first
    · exact fun _ => rfl
    · exact fun _ => le_trans (le_of_lt hahead) hge

@[simp] theorem trackedSeqnum_clearEnforcement (m : VictimsyncMonitor) :
    m.clearEnforcement.trackedSeqnum = m.trackedSeqnum := by
  unfold clearEnforcement
  split <;> rfl

@[simp] theorem cachedVictimSyncsets_clearEnforcement (m : VictimsyncMonitor) :
    m.clearEnforcement.cachedVictimSyncsets = m.cachedVictimSyncsets := by
  unfold clearEnforcement
  split <;> rfl

/-- A monitor that still waits has not been cleared. -/
theorem waiting_clearEnforcement (h : m.clearEnforcement.waitForCompleteVictimSyncset = true) :
    m.waitForCompleteVictimSyncset = true ∧
      m.clearEnforcement.enforcementSeqnum = m.enforcementSeqnum := by
  unfold clearEnforcement at h ⊢
  split at h
  · cases h
  · next hnot =>
    rw [if_neg hnot]
    exact ⟨h, rfl⟩

/-- The tracked sequence number never decreases. -/
theorem Receipt.tracked_le (hm : Receptive cnt m) (h : Receipt R cnt m neighbor m' out) :
    m.trackedSeqnum ≤ m'.trackedSeqnum := by
  cases h with
  | applied cached final hnew hkind hR hle hsub hahead =>
    rw [trackedSeqnum_clearEnforcement]
    rcases hnew with hfirst | hlt
    · rw [hm.first hfirst]
      exact Nat.zero_le _
    · exact le_trans (le_of_lt hlt) hle
  | _ => exact le_refl _

/-- What is buffered after a receipt was buffered before it or is the syncset received. -/
theorem Receipt.mem_cached (h : Receipt R cnt m neighbor m' out) {s : VictimSyncset}
    (hs : s ∈ m'.cachedVictimSyncsets) : s ∈ m.cachedVictimSyncsets ∨ s = neighbor := by
  cases h with
  | applied cached final hnew hkind hR hle hsub hahead =>
    rw [cachedVictimSyncsets_clearEnforcement] at hs
    exact .inl (hsub.subset hs)
  | buffered hcompressed hahead hgap hspace =>
    rcases mem_append.1 hs with hs | hs
    · exact .inl hs
    · exact .inr (mem_singleton.1 hs)
  | _ => exact .inl hs

@[simp] theorem curSeqnum_clearEnforcement (m : VictimsyncMonitor) :
    m.clearEnforcement.curSeqnum = m.curSeqnum := by
  unfold clearEnforcement
  split <;> rfl

@[simp] theorem prevVictimSyncset_clearEnforcement (m : VictimsyncMonitor) :
    m.clearEnforcement.prevVictimSyncset = m.prevVictimSyncset := by
  unfold clearEnforcement
  split <;> rfl

/-- A receipt does not touch the numbering and the previous syncset of the sender part. -/
theorem Receipt.sender_eq (h : Receipt R cnt m neighbor m' out) :
    m'.curSeqnum = m.curSeqnum ∧ m'.prevVictimSyncset = m.prevVictimSyncset := by
  cases h with
  | applied => simp
  | _ => exact ⟨rfl, rfl⟩

/-- A monitor that waits after a receipt has just set its flag, or it waited before and the syncset
was not what it waits for. -/
theorem Receipt.still_waiting (hm : Receptive cnt m) (h : Receipt R cnt m neighbor m' out)
    (hwait : m'.waitForCompleteVictimSyncset = true) :
    m'.needEnforcement = true ∨
      (m.waitForCompleteVictimSyncset = true ∧ m'.needEnforcement = m.needEnforcement ∧
        m'.enforcementSeqnum = m.enforcementSeqnum ∧
        ¬ (neighbor.isComplete = true ∧ m.enforcementSeqnum < neighbor.seqnum)) := by
  have hnot : neighbor.isCompressed = true → ¬ neighbor.isComplete = true := by
    intro hcompressed hcomplete
    rw [isComplete_eq_not_isCompressed, hcompressed] at hcomplete
    cases hcomplete
  cases h with
  | outdated hfirst hle =>
    have htracked := hm.waiting hwait
    exact .inr ⟨hwait, rfl, rfl, fun hc => by omega⟩
  | applied cached final hnew hkind hR hle hsub hahead =>
    unfold clearEnforcement at hwait ⊢
    split at hwait
    · cases hwait
    · next hnotCleared =>
      rw [if_neg hnotCleared]
      refine .inr ⟨hwait, rfl, rfl, fun hc => hnotCleared ⟨hwait, ?_⟩⟩
      exact lt_of_lt_of_le hc.2 hle
  | buffered hcompressed hahead hgap hspace =>
    exact .inr ⟨hwait, rfl, rfl, fun hc => hnot hcompressed hc.1⟩
  | enforced enforcementSeqnum hcompressed hahead hfull hwait' hseen hge => exact .inl rfl
  | waited hcompressed hahead hfull hwait' =>
    exact .inr ⟨hwait, rfl, rfl, fun hc => hnot hcompressed hc.1⟩

/-- A syncset that would be buffered has the sequence number of a buffered one. -/
def BuffersTwice (cnt : Nat) (m : VictimsyncMonitor) (neighbor : VictimSyncset) : Prop :=
  neighbor.isCompressed = true ∧ m.cachedVictimSyncsets.length < cnt ∧
    (m.isFirstCompleteReceived = true ∨ m.trackedSeqnum + 1 < neighbor.seqnum) ∧
    ∃ s ∈ m.cachedVictimSyncsets, s.seqnum = neighbor.seqnum

instance (cnt : Nat) (m : VictimsyncMonitor) (neighbor : VictimSyncset) :
    Decidable (BuffersTwice cnt m neighbor) :=
  inferInstanceAs (Decidable (_ ∧ _ ∧ (_ ∨ _) ∧ ∃ s ∈ m.cachedVictimSyncsets, _))

/-- The buffered sequence numbers stay distinct unless one is buffered twice. -/
theorem Receipt.distinct (hdistinct : KeyedList.NodupKeys seqnum
      m.cachedVictimSyncsets) (htwice : ¬ BuffersTwice cnt m neighbor)
    (h : Receipt R cnt m neighbor m' out) :
    KeyedList.NodupKeys seqnum m'.cachedVictimSyncsets := by
  cases h with
  | applied cached final hnew hkind hR hle hsub hahead =>
    rw [cachedVictimSyncsets_clearEnforcement]
    exact hdistinct.sublist hsub
  | buffered hcompressed hahead hgap hspace =>
    apply hdistinct.append_singleton
    rw [KeyedList.find_eq_none_iff]
    intro hmem
    obtain ⟨s, hs, heq⟩ := mem_map.1 hmem
    exact htwice ⟨hcompressed, hspace, hgap, s, hs, heq⟩
  | _ => exact hdistinct

/-! ## What a receipt leaves alone

Whatever a receipt does, it buffers nothing but the syncset received, and the numbering of the
sender part goes on. -/

theorem track_frame (h : m.track complete syncedSeqnum cnt = some (m', out)) :
    m'.curSeqnum = m.curSeqnum ∧ m'.cachedVictimSyncsets ⊆ m.cachedVictimSyncsets := by
  simp only [track, tryToClearEnforcementStatus, clearStaleCachedVictimSyncsets,
    clearContinuousCachedVictimSyncsets, bind_eq_some_iff, require_eq_some_iff, pure_eq_some_iff,
    Prod.mk.injEq, Prod.exists] at h
  obtain ⟨m₁, final, ⟨-, -, -, -, m₀, ⟨-, -, rfl⟩, m₂, final', ⟨-, -, -, -, -, -, cached, final'',
    hloop, rfl, rfl⟩, -, -, rfl, rfl⟩, rfl, rfl⟩ := h
  rw [cachedVictimSyncsets_clearEnforcement, curSeqnum_clearEnforcement]
  refine ⟨rfl, fun s hs => ?_⟩
  exact mem_of_mem_filter (subset_of_clearContinuousLoop hloop hs)

theorem buffer_frame (h : m.buffer neighbor syncedSeqnum cnt = some (m', out)) :
    m'.curSeqnum = m.curSeqnum ∧
      ∀ s ∈ m'.cachedVictimSyncsets, s ∈ m.cachedVictimSyncsets ∨ s = neighbor := by
  simp only [buffer, tryToEnableEnforcementStatus, bind_eq_bind] at h
  obtain ⟨m₁, h₁, h⟩ := bind_eq_some_iff.1 h
  cases h
  simp only [require_bind_eq_some_iff] at h₁
  obtain ⟨-, -, h₁⟩ := h₁
  split at h₁
  · cases h₁
    refine ⟨rfl, fun s hs => ?_⟩
    rcases mem_append.1 hs with hold | hnew
    · exact .inl hold
    · exact .inr (mem_singleton.1 hnew)
  · split at h₁
    · simp only [Option.bind_eq_some_iff, pure_eq_some_iff] at h₁
      obtain ⟨-, -, -, -, rfl⟩ := h₁
      exact ⟨rfl, fun s hs => .inl hs⟩
    · cases h₁
      exact ⟨rfl, fun s hs => .inl hs⟩

theorem receive_frame (h : m.receive cnt existing neighbor = some (m', out)) :
    m'.curSeqnum = m.curSeqnum ∧
      ∀ s ∈ m'.cachedVictimSyncsets, s ∈ m.cachedVictimSyncsets ∨ s = neighbor := by
  rw [receive] at h
  split at h
  · split at h
    · simp only [clearFirstCompleteReceived, bind_eq_some_iff, pure_eq_some_iff] at h
      obtain ⟨m₁, ⟨-, -, rfl⟩, htrack⟩ := h
      obtain ⟨hcur, hsub⟩ := track_frame htrack
      exact ⟨hcur, fun s hs => .inl (hsub hs)⟩
    · exact buffer_frame h
  · split at h
    · cases h
      exact ⟨rfl, fun s hs => .inl hs⟩
    · rw [bind_eq_bind] at h
      obtain ⟨next, -, h⟩ := bind_eq_some_iff.1 h
      split at h
      · -- the syncset directly follows the tracked one
        obtain ⟨c, -, htrack⟩ := bind_eq_some_iff.1 h
        obtain ⟨hcur, hsub⟩ := track_frame htrack
        exact ⟨hcur, fun s hs => .inl (hsub hs)⟩
      · split at h
        · obtain ⟨hcur, hsub⟩ := track_frame h
          exact ⟨hcur, fun s hs => .inl (hsub hs)⟩
        · exact buffer_frame h

/-! ## A receipt succeeds -/

theorem track_isSome (hm : Receptive cnt m)
    (hdistinct : KeyedList.NodupKeys seqnum m.cachedVictimSyncsets)
    (hrecover : ∀ t ∈ m.cachedVictimSyncsets, ∀ b, R b → t.seqnum = b.seqnum + 1 →
      ∃ r, recover t b = some r ∧ R r)
    (hwf : ∀ b, R b → b.isComplete = true ∧ b.seqnum + 1 < uint64Limit) (hR : R complete) :
    ∃ result, m.track complete complete.seqnum cnt = some result := by
  have hsub := filter_sublist (l := m.cachedVictimSyncsets)
    (p := fun s => decide (complete.seqnum < s.seqnum))
  have hrecover' : ∀ t ∈ m.cachedVictimSyncsets.filter fun s => complete.seqnum < s.seqnum,
      ∀ b, R b → t.seqnum = b.seqnum + 1 → ∃ r, recover t b = some r ∧ R r :=
    fun t ht => hrecover t (hsub.subset ht)
  obtain ⟨⟨cached, final⟩, hloop⟩ := clearContinuousLoop_isSome
    (fun t ht => hm.compressed t (hsub.subset ht))
    (fun t ht => by simpa using (mem_filter.1 ht).2) (hdistinct.sublist hsub) hrecover' hwf
    (fun t b r _ hr => seqnum_recover hr) hR
    (m.cachedVictimSyncsets.filter fun s => complete.seqnum < s.seqnum).length
  obtain ⟨-, hle, -, -⟩ := clearContinuousLoop_spec (le_refl _) hrecover' hR hloop
  have hbound := le_trans hsub.length_le hm.bound
  simp only [track, tryToClearEnforcementStatus, clearStaleCachedVictimSyncsets,
    clearContinuousCachedVictimSyncsets, require_bind (hwf _ hR).1, require_bind hm.bound,
    require_bind, Option.pure_def, some_bind, require_bind hbound, hloop, ge_iff_le,
    require_bind hle]
  exact ⟨_, rfl⟩

theorem buffer_isSome (hm : Receptive cnt m) (hcompressed : neighbor.isCompressed = true) :
    ∃ result, m.buffer neighbor neighbor.seqnum cnt = some result := by
  simp only [buffer, tryToEnableEnforcementStatus, require_bind hcompressed, require_bind]
  split
  · exact ⟨_, rfl⟩
  · split
    · next hwait =>
      have hneed : m.needEnforcement = false := by
        cases hneed : m.needEnforcement with
        | false => rfl
        | true =>
          rw [hm.flag hneed] at hwait
          cases hwait
      simp only [getMaxSeqnumFromCachedVictimSyncsets, require_bind hm.bound, Option.pure_def,
        some_bind, require_bind hneed]
      exact ⟨_, rfl⟩
    · exact ⟨_, rfl⟩

/-- A receipt succeeds if no two buffered syncsets have the same sequence number. -/
theorem receive_isSome (existing : Option VictimSyncset) (neighbor : VictimSyncset)
    (hm : Receptive cnt m)
    (hdistinct : KeyedList.NodupKeys seqnum m.cachedVictimSyncsets)
    (hrecover : ∀ t ∈ m.cachedVictimSyncsets, ∀ b, R b → t.seqnum = b.seqnum + 1 →
      ∃ r, recover t b = some r ∧ R r)
    (hwf : ∀ b, R b → b.isComplete = true ∧ b.seqnum + 1 < uint64Limit)
    (hcomplete : neighbor.isComplete = true → R neighbor)
    (hmatched : neighbor.isCompressed = true → m.isFirstCompleteReceived = false →
      neighbor.seqnum = m.trackedSeqnum + 1 → ∃ e r, existing = some e ∧ e.isComplete = true ∧
        recover neighbor e = some r ∧ r.isComplete = true ∧ R r)
    (hlimit : m.trackedSeqnum + 1 < uint64Limit) :
    ∃ result, m.receive cnt existing neighbor = some result := by
  unfold receive
  cases hfirst : m.isFirstCompleteReceived with
  | true =>
    by_cases hkind : neighbor.isComplete = true
    · simp only [if_true, hkind, clearFirstCompleteReceived, require_bind (hm.first hfirst),
        Option.pure_def, some_bind]
      have hm' : Receptive cnt { m with isFirstCompleteReceived := false } :=
        ⟨hm.bound, hm.compressed, hm.ahead, fun h => Bool.noConfusion h, hm.flag, hm.waiting⟩
      exact track_isSome hm' hdistinct hrecover hwf (hcomplete hkind)
    · simp only [if_true, hkind, Bool.false_eq_true, if_false]
      exact buffer_isSome hm (isCompressed_of_not_isComplete hkind)
  | false =>
    simp only [Bool.false_eq_true, if_false, bind_eq_bind, uint64Add_eq hlimit,
      bind_some]
    split
    · exact ⟨_, rfl⟩
    · split
      · next heq =>
        by_cases hkind : neighbor.isComplete = true
        · simp only [recoverMatched, hkind, if_true, bind_some]
          exact track_isSome hm hdistinct hrecover hwf (hcomplete hkind)
        · obtain ⟨e, r, he, hec, hr, hrc, hRr⟩ :=
            hmatched (isCompressed_of_not_isComplete hkind) hfirst heq
          simp only [recoverMatched, hkind, Bool.false_eq_true, if_false, he, some_bind,
            require_bind hec, hr, require_bind hrc, Option.pure_def]
          rw [← seqnum_recover hr]
          exact track_isSome hm hdistinct hrecover hwf hRr
      · split
        · next hkind => exact track_isSome hm hdistinct hrecover hwf (hcomplete hkind)
        · next hkind => exact buffer_isSome hm (isCompressed_of_not_isComplete hkind)

end Receive

end VictimsyncMonitor

end Covered.Victim
