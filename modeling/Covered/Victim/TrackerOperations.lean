import Mathlib.Algebra.BigOperators.Group.Finset.Piecewise
import Covered.Lib.Execution
import Covered.Victim.VictimTracker

/-!
# One victim tracker under any mix of operations

The operations of a tracker as actions of one machine, with the snapshot of a tracker: a dump and
the load of the dump into a new tracker. A snapshot holds what the receiver of a message would read
of the cacheinfos and the directory infos (`received`). The previous syncsets of the monitors are
not dumped, so that the next syncset for every neighbor is a complete one, and neither are the
fields of the enforcement; the byte count is dumped as it is. A dump is a record of its fields:
their order and widths in the file are not modelled.

The vectors of a tracker have one element for each of `edgecnt` edges. An access outside of them is
undefined; here it aborts.
-/

set_option autoImplicit false

namespace Covered.Victim

open Common Cooperation Lib Lib.Checked

/-! ## Snapshots -/

namespace EdgelevelVictimMetadata

/-- The metadata of an edge after a dump and a load. -/
def received (metadata : EdgelevelVictimMetadata) : EdgelevelVictimMetadata :=
  { metadata with victimCacheinfos := metadata.victimCacheinfos.map VictimCacheinfo.received }

end EdgelevelVictimMetadata

namespace VictimDirinfo

/-- The directory infos of a key after a dump and a load. -/
def received (d : VictimDirinfo) : VictimDirinfo :=
  { d with
    dirinfoSet := d.dirinfoSet.received
    complete := (DirinfoSet.isComplete_received d.dirinfoSet).trans d.complete }

@[simp] theorem getSizeForCapacity_received (d : VictimDirinfo) :
    d.received.getSizeForCapacity = d.getSizeForCapacity := by
  simp only [getSizeForCapacity, received, DirinfoSet.getSizeForCapacity_received]

end VictimDirinfo

namespace VictimsyncMonitor

/-- The dumped fields of a monitor. -/
structure Dump where
  curSeqnum : Nat
  isFirstCompleteReceived : Bool
  trackedSeqnum : Nat
  cachedVictimSyncsets : List VictimSyncset

def dumpVictimsyncMonitor (m : VictimsyncMonitor) : Dump :=
  ⟨m.curSeqnum, m.isFirstCompleteReceived, m.trackedSeqnum, m.cachedVictimSyncsets⟩

/-- Load a dump into a new monitor. -/
def loadVictimsyncMonitor (d : Dump) : VictimsyncMonitor where
  curSeqnum := d.curSeqnum
  -- the next syncset is sent complete
  prevVictimSyncset := none
  isFirstCompleteReceived := d.isFirstCompleteReceived
  trackedSeqnum := d.trackedSeqnum
  cachedVictimSyncsets := d.cachedVictimSyncsets.map VictimSyncset.received

end VictimsyncMonitor

namespace VictimTracker

/-- The dumped fields of a tracker. -/
structure Dump where
  sizeBytes : Nat
  peredgeVictimMetadata : Nat → Option EdgelevelVictimMetadata
  perkeyVictimDirinfo : List (Key × VictimDirinfo)
  peredgeVictimsyncMonitor : Nat → VictimsyncMonitor.Dump

/-- Dump the tracker; every edge must have been heard from. -/
def dumpVictimTracker (edgecnt : Nat) (t : VictimTracker) : Option Dump := do
  require (∀ i < edgecnt, (t.peredgeVictimMetadata i).isSome = true)
  return {
    sizeBytes := t.sizeBytes
    peredgeVictimMetadata := t.peredgeVictimMetadata
    perkeyVictimDirinfo := t.perkeyVictimDirinfo
    peredgeVictimsyncMonitor := fun i => (t.peredgeVictimsyncMonitor i).dumpVictimsyncMonitor }

/-- Load a dump in place of what the tracker has. -/
def loadVictimTracker (t : VictimTracker) (d : Dump) : VictimTracker :=
  { t with
    sizeBytes := d.sizeBytes
    peredgeVictimMetadata := fun i =>
      (d.peredgeVictimMetadata i).map EdgelevelVictimMetadata.received
    perkeyVictimDirinfo := d.perkeyVictimDirinfo.map fun pair => (pair.1, pair.2.received)
    peredgeVictimsyncMonitor := fun i =>
      VictimsyncMonitor.loadVictimsyncMonitor (d.peredgeVictimsyncMonitor i) }

/-- The victims of an edge are loaded as a neighbor would read them. -/
theorem victimsOf_loadVictimTracker {edgecnt : Nat} {t : VictimTracker} {d : Dump}
    (hdump : t.dumpVictimTracker edgecnt = some d) (fresh : VictimTracker) (e : Nat) :
    (fresh.loadVictimTracker d).victimsOf e = (t.victimsOf e).map VictimCacheinfo.received := by
  simp only [dumpVictimTracker, require_bind_iff, pure_eq_some_iff] at hdump
  obtain ⟨-, rfl⟩ := hdump
  simp only [victimsOf, loadVictimTracker]
  cases t.peredgeVictimMetadata e with
  | none => rfl
  | some metadata => rfl

/-! ## Operations -/

/-- One operation on the tracker. -/
inductive Operation
  | updateLocalCacheMarginBytes (localCacheMarginBytes : Nat)
  | updateLocalSyncedVictims (localCacheMarginBytes : Nat) (victims : List VictimCacheinfo)
      (view : CooperationView)
  | updateLocalBeaconedVictimDirinfo (key : Key) (isAdmit : Bool) (directoryInfo : DirectoryInfo)
  | getLocalVictimSyncsetForSynchronization (dstEdgeIdx latestLocalCacheMarginBytes : Nat)
  | updateForNeighborVictimSyncset (sourceEdgeIdx : Nat) (neighbor : VictimSyncset)
      (view : CooperationView)
  | removeVictimsForGivenEdge (edgeIdx : Nat) (victimKeyset : List Key)
  | dumpAndLoad

/-- One operation on the tracker of one of `edgecnt` edges; the output is the syncset to send. -/
def step (edgecnt : Nat) (t : VictimTracker) :
    Operation → Option (VictimTracker × Option VictimSyncset)
  | .updateLocalCacheMarginBytes bytes => do
      require (t.edgeIdx < edgecnt)
      return (t.updateLocalCacheMarginBytes bytes, none)
  | .updateLocalSyncedVictims bytes victims view => do
      require (t.edgeIdx < edgecnt)
      let t' ← t.updateLocalSyncedVictims bytes victims view
      return (t', none)
  | .updateLocalBeaconedVictimDirinfo key isAdmit directoryInfo => do
      let t' ← t.updateLocalBeaconedVictimDirinfo key isAdmit directoryInfo
      return (t', none)
  | .getLocalVictimSyncsetForSynchronization dst bytes => do
      require (t.edgeIdx < edgecnt ∧ dst < edgecnt)
      let (t', syncset) ← t.getLocalVictimSyncsetForSynchronization dst bytes
      return (t', some syncset)
  | .updateForNeighborVictimSyncset source neighbor view => do
      require (source < edgecnt)
      let t' ← t.updateForNeighborVictimSyncset source neighbor view
      return (t', none)
  | .removeVictimsForGivenEdge edgeIdx victimKeyset => do
      require (edgeIdx < edgecnt)
      let t' ← t.removeVictimsForGivenEdge edgeIdx victimKeyset
      return (t', none)
  | .dumpAndLoad => do
      let d ← t.dumpVictimTracker edgecnt
      -- a new tracker with the same configuration
      return ((create t.edgeIdx edgecnt t.peredgeSyncedVictimcnt
        t.peredgeMonitoredVictimsetcnt).loadVictimTracker d, none)

/-! ## One edge of many -/

/-- A sum over the edges after the summand of one edge has changed. -/
theorem sum_range_replace {edgecnt edgeIdx : Nat} {f g : Nat → Nat} (hedge : edgeIdx < edgecnt)
    (hother : ∀ e, e ≠ edgeIdx → g e = f e) :
    ∑ e ∈ Finset.range edgecnt, g e + f edgeIdx = ∑ e ∈ Finset.range edgecnt, f e + g edgeIdx := by
  have hmem : edgeIdx ∈ Finset.range edgecnt := Finset.mem_range.2 hedge
  have hrest : ∑ e ∈ (Finset.range edgecnt).erase edgeIdx, g e =
      ∑ e ∈ (Finset.range edgecnt).erase edgeIdx, f e :=
    Finset.sum_congr rfl fun e he => hother e (Finset.ne_of_mem_erase he)
  rw [← Finset.add_sum_erase _ g hmem, ← Finset.add_sum_erase _ f hmem, hrest]
  omega

end VictimTracker

end Covered.Victim
