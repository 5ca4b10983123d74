import Covered.Cooperation.DirinfoSet
import Covered.Popularity.PopularityAggregator

/-!
# The directory cacher

An edge remembers the directory of a key that it does not cache and whose popularity it tracks, with
the popularity that was collected at the lookup. As long as the popularity does not change much, a
request for the key needs no lookup at the beacon.

The byte count of the cacher is that of the directories it holds (`Exact`).
-/

set_option autoImplicit false

namespace Covered.Edge

open Common Cooperation Lib Lib.Checked Popularity UnorderedMap

/-- A directory with the popularity that was collected when it was looked up. -/
structure CachedDirectory where
  dirinfo : DirectoryInfo
  prevCollectPopularity : Popularity
deriving DecidableEq

/-- The bytes of the directory and of a popularity. -/
def CachedDirectory.getSizeForCapacity (d : CachedDirectory) : Nat :=
  d.dirinfo.getSizeForCapacity + 4

structure DirectoryCacher where
  popularityCollectionChangeRatio : Popularity
  sizeBytes : Nat := 0
  perkeyDirinfoMap : UnorderedMap Key CachedDirectory := ∅

namespace DirectoryCacher

def getCachedDirectory (d : DirectoryCacher) (key : Key) : Option CachedDirectory :=
  d.perkeyDirinfoMap.lookup key

/-- The directory of a key, with whether the popularity of the key has changed much since. -/
def checkPopularityChange (d : DirectoryCacher) (key : Key) (localUncachedPopularity : Popularity) :
    Option (CachedDirectory × Bool) := do
  let cachedDirectory ← d.perkeyDirinfoMap.lookup key
  let popularityChange := |localUncachedPopularity - cachedDirectory.prevCollectPopularity|
  return (cachedDirectory,
    popularityChange ≥ d.popularityCollectionChangeRatio * cachedDirectory.prevCollectPopularity)

def removeCachedDirectoryIfAny (d : DirectoryCacher) (key : Key) : DirectoryCacher :=
  match d.perkeyDirinfoMap.lookup key with
  | some cachedDirectory =>
      { d with
        sizeBytes := uint64Minus d.sizeBytes cachedDirectory.getSizeForCapacity
        perkeyDirinfoMap := d.perkeyDirinfoMap.erase key }
  | none => d

/-- Put in the directory of a key, in place of the one that it has. -/
def updateForNewCachedDirectory (d : DirectoryCacher) (key : Key)
    (cachedDirectory : CachedDirectory) : Option DirectoryCacher :=
  match d.perkeyDirinfoMap.lookup key with
  | some _ => some { d with perkeyDirinfoMap := d.perkeyDirinfoMap.insert key cachedDirectory }
  | none => do
      let sizeBytes ← uint64Add d.sizeBytes cachedDirectory.getSizeForCapacity
      return { d with
        sizeBytes
        perkeyDirinfoMap := d.perkeyDirinfoMap.insert key cachedDirectory }

/-! ## Which keys have a directory -/

variable {d d' : DirectoryCacher} {key : Key} {cachedDirectory : CachedDirectory}

@[simp] theorem getCachedDirectory_remove (d : DirectoryCacher) (key key' : Key) :
    (d.removeCachedDirectoryIfAny key).getCachedDirectory key' =
      if key' = key then none else d.getCachedDirectory key' := by
  unfold removeCachedDirectoryIfAny getCachedDirectory
  split
  · exact lookup_erase_eq ..
  · next hnone =>
    split
    · next heq => rw [heq, hnone]
    · rfl

theorem getCachedDirectory_update
    (h : d.updateForNewCachedDirectory key cachedDirectory = some d') (key' : Key) :
    d'.getCachedDirectory key' =
      if key' = key then some cachedDirectory else d.getCachedDirectory key' := by
  unfold updateForNewCachedDirectory at h
  split at h
  · cases h
    exact lookup_insert_eq ..
  · simp only [bind_eq_some_iff, pure_eq_some_iff] at h
    obtain ⟨sizeBytes, -, rfl⟩ := h
    exact lookup_insert_eq ..

/-! ## The byte count -/

/-- The bytes of the directories that are held. -/
def heldBytes (directories : UnorderedMap Key CachedDirectory) : Nat :=
  directories.sumBy fun _ cachedDirectory => cachedDirectory.getSizeForCapacity

theorem heldBytes_erase {directories : UnorderedMap Key CachedDirectory}
    (hlookup : directories.lookup key = some cachedDirectory) :
    heldBytes (directories.erase key) + cachedDirectory.getSizeForCapacity =
      heldBytes directories := by
  have herase := sumBy_erase
    (fun _ (cachedDirectory : CachedDirectory) => cachedDirectory.getSizeForCapacity)
    directories key
  rw [hlookup] at herase
  exact herase

theorem heldBytes_insert (directories : UnorderedMap Key CachedDirectory) (key : Key)
    (cachedDirectory : CachedDirectory) :
    heldBytes (directories.insert key cachedDirectory) +
        (directories.lookup key).elim 0 CachedDirectory.getSizeForCapacity =
      heldBytes directories + cachedDirectory.getSizeForCapacity :=
  sumBy_insert _ directories key cachedDirectory

/-- The byte count is exact, and it fits into its 64 bits. -/
structure Exact (d : DirectoryCacher) : Prop where
  sizeBytes_eq : d.sizeBytes = heldBytes d.perkeyDirinfoMap
  fits : d.sizeBytes < uint64Limit

theorem Exact.remove (h : d.Exact) (key : Key) : (d.removeCachedDirectoryIfAny key).Exact := by
  unfold removeCachedDirectoryIfAny
  cases hlookup : d.perkeyDirinfoMap.lookup key with
  | none => exact h
  | some cachedDirectory =>
    have herase := heldBytes_erase hlookup
    rw [← h.sizeBytes_eq] at herase
    have hminus : uint64Minus d.sizeBytes cachedDirectory.getSizeForCapacity =
        heldBytes (d.perkeyDirinfoMap.erase key) := by
      rw [uint64Minus_eq h.fits (by omega)]
      omega
    have hfits : heldBytes (d.perkeyDirinfoMap.erase key) < uint64Limit :=
      lt_of_le_of_lt (Nat.le.intro herase) h.fits
    simp only [hminus]
    exact ⟨rfl, hfits⟩

theorem Exact.update (h : d.Exact)
    (hupdate : d.updateForNewCachedDirectory key cachedDirectory = some d') : d'.Exact := by
  have hinsert := heldBytes_insert d.perkeyDirinfoMap key cachedDirectory
  rw [← h.sizeBytes_eq] at hinsert
  unfold updateForNewCachedDirectory at hupdate
  cases hlookup : d.perkeyDirinfoMap.lookup key with
  | none =>
    rw [hlookup] at hupdate hinsert
    simp only [bind_eq_some_iff, pure_eq_some_iff] at hupdate
    obtain ⟨sizeBytes, hadd, rfl⟩ := hupdate
    refine ⟨?_, uint64Add_lt hadd⟩
    rw [Option.elim_none, Nat.add_zero] at hinsert
    exact (uint64Add_eq_some hadd).trans hinsert.symm
  | some old =>
    rw [hlookup] at hupdate hinsert
    cases hupdate
    -- every directory has the same size
    have hsame : old.getSizeForCapacity = cachedDirectory.getSizeForCapacity := rfl
    rw [Option.elim_some, hsame] at hinsert
    exact ⟨(Nat.add_right_cancel hinsert).symm, h.fits⟩

end DirectoryCacher

end Covered.Edge
