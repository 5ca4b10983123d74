import Covered.Common.ConcurrentHashtable

/-!
# MSI metadata and the block tracker

For each key that is being written the beacon stores a write flag and the addresses of the edge
nodes that wait for the write to finish (`MsiMetadata`). `BlockTracker` is the table of these
metadata: it sets the flag or blocks the requester, and it hands out and forgets the blocked edges
when the write finishes.

Every stored metadata has its flag set (`AllWriting`); under this invariant each function is
described by the view `blocked`, which is the blocklist of a key that is being written.
-/

set_option autoImplicit false

namespace Covered.Cooperation

open Common Lib.Checked Function ConcurrentHashtable

/-- Write flag and blocked edge nodes of one key; an edge is blocked at most once. -/
structure MsiMetadata where
  writeflag : Bool := false
  edgeBlocklist : List NetworkAddr := []
  nodup : edgeBlocklist.Nodup := by exact List.nodup_nil
deriving DecidableEq

namespace MsiMetadata

def isBeingWritten (m : MsiMetadata) : Bool := m.writeflag

/-- The blocklist with one more address, which it does not have yet. -/
def insertBlocked (m : MsiMetadata) (addr : NetworkAddr) (h : addr ∉ m.edgeBlocklist) :
    MsiMetadata :=
  { m with edgeBlocklist := addr :: m.edgeBlocklist, nodup := List.nodup_cons.2 ⟨h, m.nodup⟩ }

/-- Block the edge if the key is being written. Returns whether it was blocked before and whether
the key is being written. -/
def blockEdgeIfBeingWritten (m : MsiMetadata) (addr : NetworkAddr) :
    Option (MsiMetadata × Bool × Bool) :=
  if m.writeflag then
    if h : addr ∈ m.edgeBlocklist then some (m, true, true)
    else some (m.insertBlocked addr h, false, true)
  else do
    require (m.edgeBlocklist.length = 0)
    return (m, false, false)

/-- Set the write flag unless it is set; returns whether it was not. -/
def casWriteflag (m : MsiMetadata) : Option (MsiMetadata × Bool) :=
  if m.writeflag = false then do
    require (m.edgeBlocklist.length = 0)
    return ({ m with writeflag := true }, true)
  else some (m, false)

/-- Set the write flag, or block the edge if it is set. -/
def casWriteflagOrBlockEdge (m : MsiMetadata) (addr : NetworkAddr) :
    Option (MsiMetadata × Bool) := do
  let (m', isSuccessful) ← m.casWriteflag
  if isSuccessful then return (m', true)
  else
    let (m'', isBlockedBefore, isBeingWritten) ← m'.blockEdgeIfBeingWritten addr
    require (isBlockedBefore = false)
    require (isBeingWritten = true)
    return (m'', false)

/-- Reset the write flag of a key that is being written and return the blocked edges. -/
def unblockAllEdgesAndFinishWrite (m : MsiMetadata) : Option (MsiMetadata × List NetworkAddr) := do
  require (m.writeflag = true)
  return ({ m with writeflag := false }, m.edgeBlocklist)

instance : SizeForCapacity MsiMetadata where
  getSizeForCapacity m := 1 + (m.edgeBlocklist.map NetworkAddr.getSizeForCapacity).sum

end MsiMetadata

/-- MSI metadata of the keys of one beacon. -/
abbrev BlockTracker := ConcurrentHashtable MsiMetadata

namespace BlockTracker

def isBeingWrittenForKey (tracker : BlockTracker) (key : Key) : Bool :=
  (tracker.constCallIfExist key MsiMetadata.isBeingWritten).getD false

/-- Block the edge if the key is being written; returns whether it is. -/
def blockEdgeForKeyIfExistAndBeingWritten (tracker : BlockTracker) (key : Key)
    (addr : NetworkAddr) : Option (BlockTracker × Bool) := do
  let (tracker', result) ← tracker.callIfExist key fun m =>
    (m.blockEdgeIfBeingWritten addr).map fun (m', isBlockedBefore, isBeingWritten) =>
      (m', false, isBlockedBefore, isBeingWritten)
  match result with
  | none => return (tracker', false)
  | some (isBlockedBefore, isBeingWritten) =>
      require (isBlockedBefore = false)
      return (tracker', isBeingWritten)

def casWriteflagForKey (tracker : BlockTracker) (key : Key) : Option (BlockTracker × Bool) := do
  let (tracker', result) ← tracker.insertOrCall key { writeflag := true } fun m =>
    m.casWriteflag.map fun (m', isSuccessful) => (m', false, isSuccessful)
  return (tracker', result.getD true)

def casWriteflagOrBlockEdgeForKey (tracker : BlockTracker) (key : Key) (addr : NetworkAddr) :
    Option (BlockTracker × Bool) := do
  let (tracker', result) ← tracker.insertOrCall key { writeflag := true } fun m =>
    (m.casWriteflagOrBlockEdge addr).map fun (m', isSuccessful) => (m', false, isSuccessful)
  return (tracker', result.getD true)

/-- Finish the write of a stored key: return its blocked edges and erase its metadata. -/
def unblockAllEdgesAndFinishWriteForKeyIfExist (tracker : BlockTracker) (key : Key) :
    Option (BlockTracker × List NetworkAddr) := do
  let (tracker', result) ← tracker.callIfExist key fun m =>
    m.unblockAllEdgesAndFinishWrite.map fun (m', blockedEdges) => (m', true, blockedEdges)
  let blockedEdges ← result
  return (tracker', blockedEdges)

/-! ## The view by blocklists -/

/-- Every stored metadata belongs to a key that is being written. -/
def AllWriting (tracker : BlockTracker) : Prop :=
  ∀ key m, tracker.find key = some m → m.writeflag = true

/-- The blocklist of a stored key. -/
def blocked (tracker : BlockTracker) (key : Key) : Option (List NetworkAddr) :=
  (tracker.find key).map MsiMetadata.edgeBlocklist

variable {tracker : BlockTracker}

theorem isBeingWritten_iff (h : AllWriting tracker) (key : Key) :
    isBeingWrittenForKey tracker key = true ↔ ∃ l, blocked tracker key = some l := by
  unfold isBeingWrittenForKey constCallIfExist blocked
  cases hfind : tracker.find key with
  | none => simp
  | some m => simp [MsiMetadata.isBeingWritten, h key m hfind]

theorem blocked_nodup {key : Key} {l : List NetworkAddr} (h : blocked tracker key = some l) :
    l.Nodup := by
  obtain ⟨m, -, rfl⟩ := Option.map_eq_some_iff.1 h
  exact m.nodup

theorem blocked_update {find : Key → Option MsiMetadata} (key : Key) (x : Option MsiMetadata) :
    (fun k => (update find key x k).map MsiMetadata.edgeBlocklist) =
      update (fun k => (find k).map MsiMetadata.edgeBlocklist) key
        (x.map MsiMetadata.edgeBlocklist) := by
  funext k
  by_cases hk : k = key
  · subst hk
    simp
  · simp [hk]

/-- Blocklists after one stored metadata changed. -/
theorem blocked_of_find {tracker' : BlockTracker} {key : Key} {x : Option MsiMetadata}
    (h : tracker'.find = update tracker.find key x) :
    blocked tracker' = update (blocked tracker) key (x.map MsiMetadata.edgeBlocklist) := by
  have hfun : blocked tracker' = fun k => (tracker'.find k).map MsiMetadata.edgeBlocklist := rfl
  rw [hfun, h]
  exact blocked_update key x

section Writing

variable (h : AllWriting tracker)
include h

theorem allWriting_of_find {tracker' : BlockTracker} {key : Key} {x : Option MsiMetadata}
    (hfind : tracker'.find = update tracker.find key x)
    (hx : ∀ m, x = some m → m.writeflag = true) : AllWriting tracker' := by
  intro k m hm
  rw [hfind, update_apply] at hm
  split at hm
  · exact hx m hm
  · exact h k m hm

theorem spec_of_find {tracker' : BlockTracker} {key : Key} {m : MsiMetadata}
    (hflag : m.writeflag = true) (hfind : tracker'.find = update tracker.find key (some m)) :
    AllWriting tracker' ∧ blocked tracker' = update (blocked tracker) key (some m.edgeBlocklist) :=
  ⟨allWriting_of_find h hfind (by rintro _ ⟨⟩; exact hflag), blocked_of_find hfind⟩

/-! ## One lemma for each function -/

/-- A lookup blocks its edge iff the key is being written; it aborts iff the edge is blocked
already. -/
theorem blockEdge_spec (key : Key) (addr : NetworkAddr) :
    match blocked tracker key with
    | none => blockEdgeForKeyIfExistAndBeingWritten tracker key addr = some (tracker, false)
    | some l =>
      if addr ∈ l then blockEdgeForKeyIfExistAndBeingWritten tracker key addr = none
      else ∃ tracker', blockEdgeForKeyIfExistAndBeingWritten tracker key addr =
          some (tracker', true) ∧ AllWriting tracker' ∧
        blocked tracker' = update (blocked tracker) key (some (addr :: l)) := by
  cases hfind : tracker.find key with
  | none =>
    simp [blocked, hfind, blockEdgeForKeyIfExistAndBeingWritten, callIfExist]
  | some m =>
    have hflag : m.writeflag = true := h key m hfind
    simp only [blocked, hfind, Option.map_some]
    by_cases hmem : addr ∈ m.edgeBlocklist
    · simp [hmem, blockEdgeForKeyIfExistAndBeingWritten, callIfExist, hfind,
        MsiMetadata.blockEdgeIfBeingWritten, hflag, require]
    · rw [if_neg hmem]
      refine ⟨tracker.replace key m (m.insertBlocked addr hmem), ?_,
        spec_of_find (m := m.insertBlocked addr hmem) h hflag (find_replace tracker key m _)⟩
      · simp [blockEdgeForKeyIfExistAndBeingWritten, callIfExist, hfind,
          MsiMetadata.blockEdgeIfBeingWritten, hflag, hmem, require]

/-- The cache server's acquisition succeeds iff the key is not being written. -/
theorem casWriteflagForKey_spec (key : Key) :
    match blocked tracker key with
    | none => ∃ tracker', casWriteflagForKey tracker key = some (tracker', true) ∧
        AllWriting tracker' ∧ blocked tracker' = update (blocked tracker) key (some [])
    | some _ => ∃ tracker', casWriteflagForKey tracker key = some (tracker', false) ∧
        AllWriting tracker' ∧ blocked tracker' = blocked tracker := by
  cases hfind : tracker.find key with
  | none =>
    simp only [blocked, hfind, Option.map_none]
    refine ⟨tracker.insertNew key { writeflag := true }, ?_,
      spec_of_find h rfl (find_insertNew tracker key _)⟩
    · simp [casWriteflagForKey, insertOrCall, hfind]
  | some m =>
    have hflag : m.writeflag = true := h key m hfind
    simp only [blocked, hfind, Option.map_some]
    have hstored := spec_of_find h hflag (find_replace tracker key m m)
    refine ⟨tracker.replace key m m, ?_, ?_⟩
    · simp [casWriteflagForKey, insertOrCall, hfind,
        MsiMetadata.casWriteflag, hflag, require]
    · have hsome : blocked tracker key = some m.edgeBlocklist := by simp [blocked, hfind]
      rwa [← hsome, update_eq_self] at hstored

/-- The beacon server's acquisition succeeds iff the key is not being written, and blocks its edge
otherwise; it aborts iff the edge is blocked already. -/
theorem casWriteflagOrBlockEdge_spec (key : Key) (addr : NetworkAddr) :
    match blocked tracker key with
    | none => ∃ tracker', casWriteflagOrBlockEdgeForKey tracker key addr = some (tracker', true) ∧
        AllWriting tracker' ∧ blocked tracker' = update (blocked tracker) key (some [])
    | some l =>
      if addr ∈ l then casWriteflagOrBlockEdgeForKey tracker key addr = none
      else ∃ tracker', casWriteflagOrBlockEdgeForKey tracker key addr = some (tracker', false) ∧
        AllWriting tracker' ∧
        blocked tracker' = update (blocked tracker) key (some (addr :: l)) := by
  cases hfind : tracker.find key with
  | none =>
    simp only [blocked, hfind, Option.map_none]
    refine ⟨tracker.insertNew key { writeflag := true }, ?_,
      spec_of_find h rfl (find_insertNew tracker key _)⟩
    · simp [casWriteflagOrBlockEdgeForKey, insertOrCall, hfind]
  | some m =>
    have hflag : m.writeflag = true := h key m hfind
    simp only [blocked, hfind, Option.map_some]
    by_cases hmem : addr ∈ m.edgeBlocklist
    · simp [hmem, casWriteflagOrBlockEdgeForKey, insertOrCall, hfind,
        MsiMetadata.casWriteflagOrBlockEdge, MsiMetadata.casWriteflag,
        MsiMetadata.blockEdgeIfBeingWritten, hflag, require]
    · rw [if_neg hmem]
      refine ⟨tracker.replace key m (m.insertBlocked addr hmem), ?_,
        spec_of_find (m := m.insertBlocked addr hmem) h hflag (find_replace tracker key m _)⟩
      · simp [casWriteflagOrBlockEdgeForKey, insertOrCall, hfind,
          MsiMetadata.casWriteflagOrBlockEdge, MsiMetadata.casWriteflag,
          MsiMetadata.blockEdgeIfBeingWritten, hflag, hmem, require]

/-- A release returns the blocklist and forgets the key; it aborts iff the key is not being
written. -/
theorem unblockAll_spec (key : Key) :
    match blocked tracker key with
    | none => unblockAllEdgesAndFinishWriteForKeyIfExist tracker key = none
    | some l => ∃ tracker', unblockAllEdgesAndFinishWriteForKeyIfExist tracker key =
          some (tracker', l) ∧ AllWriting tracker' ∧
        blocked tracker' = update (blocked tracker) key none := by
  cases hfind : tracker.find key with
  | none =>
    simp [blocked, hfind, unblockAllEdgesAndFinishWriteForKeyIfExist,
      callIfExist]
  | some m =>
    have hflag : m.writeflag = true := h key m hfind
    have hstore : ((tracker.replace key m { m with writeflag := false }).eraseExisting key
        { m with writeflag := false }).find = update tracker.find key none := by
      simp
    simp only [blocked, hfind, Option.map_some]
    refine ⟨_, ?_, allWriting_of_find h hstore (by rintro _ ⟨⟩), blocked_of_find hstore⟩
    simp [unblockAllEdgesAndFinishWriteForKeyIfExist, callIfExist, hfind,
      MsiMetadata.unblockAllEdgesAndFinishWrite, hflag, require]

end Writing

/-! ## What an acquisition does -/

/-- An attempt to set the flag of a key began a write of it, or the key is being written already,
and `Waits` says what became of its blocklist. -/
def Attempted (tracker : BlockTracker) (key : Key) (Waits : List NetworkAddr → BlockTracker → Prop)
    (tracker' : BlockTracker) (isSuccessful : Bool) : Prop :=
  AllWriting tracker' ∧ match isSuccessful with
    | true => blocked tracker key = none ∧ blocked tracker' = update (blocked tracker) key (some [])
    | false => ∃ l, blocked tracker key = some l ∧ Waits l tracker'

section Cases

variable {tracker' : BlockTracker} {key : Key} {isSuccessful : Bool}

theorem casWriteflagForKey_cases (h : AllWriting tracker)
    (hcas : casWriteflagForKey tracker key = some (tracker', isSuccessful)) :
    Attempted tracker key (fun _ t => blocked t = blocked tracker) tracker' isSuccessful := by
  have hspec := casWriteflagForKey_spec h key
  cases hb : blocked tracker key with
  | none =>
    simp only [hb] at hspec
    obtain ⟨_, hstep, hall, hblocked⟩ := hspec
    cases hstep.symm.trans hcas
    exact ⟨hall, hb, hblocked⟩
  | some l =>
    simp only [hb] at hspec
    obtain ⟨_, hstep, hall, hblocked⟩ := hspec
    cases hstep.symm.trans hcas
    exact ⟨hall, l, hb, hblocked⟩

theorem casWriteflagOrBlockEdge_cases (h : AllWriting tracker) {addr : NetworkAddr}
    (hcas : casWriteflagOrBlockEdgeForKey tracker key addr = some (tracker', isSuccessful)) :
    Attempted tracker key (fun l t => addr ∉ l ∧
      blocked t = update (blocked tracker) key (some (addr :: l))) tracker' isSuccessful := by
  have hspec := casWriteflagOrBlockEdge_spec h key addr
  cases hb : blocked tracker key with
  | none =>
    simp only [hb] at hspec
    obtain ⟨_, hstep, hall, hblocked⟩ := hspec
    cases hstep.symm.trans hcas
    exact ⟨hall, hb, hblocked⟩
  | some l =>
    simp only [hb] at hspec
    split at hspec
    · cases hspec.symm.trans hcas
    · next hmem =>
      obtain ⟨_, hstep, hall, hblocked⟩ := hspec
      cases hstep.symm.trans hcas
      exact ⟨hall, l, hb, hmem, hblocked⟩

end Cases

end BlockTracker

end Covered.Cooperation
