import Covered.Common.ConcurrentHashtable
import Covered.Cooperation.DirinfoSet

/-!
# Directory entries and the directory table

The beacon of a key stores, for each key, the edge nodes that cache it and whether their copies are
valid (`DirectoryEntry`). `DirectoryTable` is the table of these entries. Its functions abort where
the source asserts: an entry that is stored is not empty, and a lookup never answers with the edge
that asked.

Each function has one lemma that says what it stores (`update_insert_spec`, `update_remove_spec`,
`invalidateAll_spec`, `validate_spec`) and, where it can abort, one that says when it does not.
-/

set_option autoImplicit false

namespace Covered.Cooperation

open Common Lib Lib.Checked UnorderedMap Function List ConcurrentHashtable DirinfoSet
open Option hiding bind_eq_some_iff

/-- Metadata of a directory info: the validity of the cached copy. -/
structure DirectoryMetadata where
  isValid : Bool := false
deriving DecidableEq, Repr

def DirectoryMetadata.validateMetadata (_ : DirectoryMetadata) : DirectoryMetadata := ⟨true⟩

def DirectoryMetadata.invalidateMetadata (_ : DirectoryMetadata) : DirectoryMetadata := ⟨false⟩

def DirectoryMetadata.getSizeForCapacity (_ : DirectoryMetadata) : Nat := 1

/-- Whether an update of the directory leaves a single copy or ends the state of a single copy, and
the edge node to notify of it. -/
structure MetadataUpdateRequirement where
  isFromSingleToMultiple : Bool := false
  isFromMultipleToSingle : Bool := false
  notifyEdgeIdx : Nat := 0
  not_both : ¬ (isFromSingleToMultiple = true ∧ isFromMultipleToSingle = true) := by decide

/-- An edge is to be notified. -/
def MetadataUpdateRequirement.NeedUpdate (requirement : MetadataUpdateRequirement) : Prop :=
  requirement.isFromSingleToMultiple = true ∨ requirement.isFromMultipleToSingle = true

instance (requirement : MetadataUpdateRequirement) : Decidable requirement.NeedUpdate :=
  inferInstanceAs (Decidable (_ ∨ _))

/-- What the requirement of an update says to an edge, when `before` and `after` say that another
edge is listed before and after it: the edge is notified of what holds after it, or nothing
changes. -/
def MetadataUpdateRequirement.Tells (requirement : MetadataUpdateRequirement) (edge : Nat)
    (before after : Prop) : Prop :=
  if requirement.NeedUpdate then
    requirement.notifyEdgeIdx = edge ∧ (requirement.isFromSingleToMultiple = true ↔ after)
  else after ↔ before

theorem MetadataUpdateRequirement.tells_nothing {edge : Nat} {before after : Prop}
    (hsame : after ↔ before) : ({} : MetadataUpdateRequirement).Tells edge before after := by
  rw [Tells, if_neg (by decide)]
  exact hsame

/-! ## Directory entries -/

/-- The directory infos of one key with their metadata. -/
abbrev DirectoryEntry := UnorderedMap DirectoryInfo DirectoryMetadata

namespace DirectoryEntry

/-- Number of directory infos of an entry. -/
def size (entry : DirectoryEntry) : Nat := entry.entries.length

/-- Target of the first directory info, if any. -/
def beginTargetEdgeIdx (entry : DirectoryEntry) : Nat :=
  (entry.entries.head?.map fun pair => pair.1.targetEdgeIdx).getD 0

def getAllDirinfo (entry : DirectoryEntry) : DirinfoSet := .ofList entry.keys

def getAllValidDirinfo (entry : DirectoryEntry) : DirinfoSet :=
  .ofList ((entry.entries.filter fun pair => pair.2.isValid).map Sigma.fst)

/-- Add a directory info or overwrite its metadata; returns whether it existed. -/
def addDirinfo (entry : DirectoryEntry) (dirinfo : DirectoryInfo) (metadata : DirectoryMetadata) :
    DirectoryEntry × Bool × MetadataUpdateRequirement :=
  match entry.lookup dirinfo with
  | none =>
      (entry.insert dirinfo metadata, false,
        if size entry = 1 then
          { isFromSingleToMultiple := true, notifyEdgeIdx := beginTargetEdgeIdx entry }
        else {})
  | some _ => (entry.insert dirinfo metadata, true, {})

/-- Remove a directory info; returns whether it existed. -/
def removeDirinfo (entry : DirectoryEntry) (dirinfo : DirectoryInfo) :
    DirectoryEntry × Bool × MetadataUpdateRequirement :=
  match entry.lookup dirinfo with
  | none => (entry, false, {})
  | some _ =>
      let rest := entry.erase dirinfo
      (rest, true,
        if size rest = 1 then
          { isFromMultipleToSingle := true, notifyEdgeIdx := beginTargetEdgeIdx rest }
        else {})

/-- Invalidate every directory info and return them all. -/
def invalidateMetadataForAllDirinfoIfExist (entry : DirectoryEntry) : DirectoryEntry × DirinfoSet :=
  (entry.mapVal DirectoryMetadata.invalidateMetadata, .ofList entry.keys)

/-- Validate one directory info if it exists; returns whether it does. -/
def validateMetadataForDirinfoIfExist (entry : DirectoryEntry) (dirinfo : DirectoryInfo) :
    DirectoryEntry × Bool :=
  match entry.lookup dirinfo with
  | none => (entry, false)
  | some metadata => (entry.insert dirinfo metadata.validateMetadata, true)

instance : SizeForCapacity DirectoryEntry where
  getSizeForCapacity entry :=
    (entry.entries.map fun pair => pair.1.getSizeForCapacity + pair.2.getSizeForCapacity).sum

/-! What the functions store, read through `lookup` -/

theorem addDirinfo_fst (entry : DirectoryEntry) (dirinfo : DirectoryInfo)
    (metadata : DirectoryMetadata) :
    (addDirinfo entry dirinfo metadata).1 = entry.insert dirinfo metadata := by
  unfold addDirinfo
  cases entry.lookup dirinfo <;> rfl

theorem lookup_removeDirinfo (entry : DirectoryEntry) (dirinfo d : DirectoryInfo) :
    (removeDirinfo entry dirinfo).1.lookup d = if d = dirinfo then none else entry.lookup d := by
  unfold removeDirinfo
  cases h : entry.lookup dirinfo with
  | none =>
    by_cases hd : d = dirinfo
    · subst hd
      simp [h]
    · simp [hd]
  | some m => exact lookup_erase_eq entry d dirinfo

theorem lookup_invalidateAll (entry : DirectoryEntry) (d : DirectoryInfo) :
    (invalidateMetadataForAllDirinfoIfExist entry).1.lookup d =
      (entry.lookup d).map DirectoryMetadata.invalidateMetadata :=
  lookup_mapVal _ entry d

theorem lookup_validate (entry : DirectoryEntry) (dirinfo d : DirectoryInfo) :
    (validateMetadataForDirinfoIfExist entry dirinfo).1.lookup d =
      if d = dirinfo then (entry.lookup d).map DirectoryMetadata.validateMetadata
      else entry.lookup d := by
  unfold validateMetadataForDirinfoIfExist
  cases h : entry.lookup dirinfo with
  | none =>
    by_cases hd : d = dirinfo
    · subst hd
      simp [h]
    · simp [hd]
  | some m =>
    simp only [lookup_insert_eq]
    by_cases hd : d = dirinfo
    · subst hd
      simp [h]
    · simp [hd]

theorem entries_ne_nil_iff (entry : DirectoryEntry) :
    entry.entries ≠ [] ↔ ∃ d m, entry.lookup d = some m := by
  constructor
  · exact exists_lookup_of_entries_ne_nil entry
  · rintro ⟨d, m, h⟩ hnil
    rw [← mem_entries_iff, hnil] at h
    exact not_mem_nil h

theorem nodup_getAllValid (entry : DirectoryEntry) :
    (getAllValidDirinfo entry).dirinfoSet.Nodup := by
  have hkeys : entry.entries.keys.Nodup := entry.nodupKeys
  simp only [getAllValidDirinfo, dirinfoSet_ofList]
  exact hkeys.sublist (filter_sublist.map Sigma.fst)

/-! Which infos an update leaves with another one beside them -/

/-- Another directory info than the given one is in the entry. -/
def HasOther (entry : DirectoryEntry) (d : DirectoryInfo) : Prop :=
  ∃ other ∈ entry.keys, other ≠ d

theorem length_keys (entry : DirectoryEntry) : entry.keys.length = size entry :=
  length_map ..

variable {entry : DirectoryEntry} {d : DirectoryInfo}

/-- An info that is not alone in its entry has another one beside it. -/
theorem hasOther_of_size_ne_one (hd : d ∈ entry.keys) (hsize : size entry ≠ 1) :
    HasOther entry d := by
  have hnodup : entry.keys.Nodup := entry.nodupKeys
  rw [← length_keys] at hsize
  rw [HasOther]
  cases hkeys : entry.keys with
  | nil =>
    rw [hkeys] at hd
    cases hd
  | cons a rest =>
    cases rest with
    | nil =>
      rw [hkeys] at hsize
      exact absurd rfl hsize
    | cons b rest =>
      rw [hkeys, nodup_cons] at hnodup
      have hab : a ≠ b := fun heq => hnodup.1 (heq ▸ mem_cons_self)
      by_cases ha : a = d
      · exact ⟨b, by simp, fun hb => hab (ha.trans hb.symm)⟩
      · exact ⟨a, by simp, ha⟩

/-- The only info of an entry is the first one, and there is no other. -/
theorem begin_of_size_eq_one (hd : d ∈ entry.keys) (hsize : size entry = 1) :
    beginTargetEdgeIdx entry = d.targetEdgeIdx ∧ ¬ HasOther entry d := by
  obtain ⟨pair, hpair⟩ := length_eq_one_iff.1 hsize
  have hkeys : entry.keys = [pair.1] := by rw [AList.keys, hpair]; rfl
  rw [hkeys, mem_singleton] at hd
  refine ⟨?_, ?_⟩
  · rw [beginTargetEdgeIdx, hpair, hd]
    rfl
  · rintro ⟨other, hother, hne⟩
    rw [hkeys, mem_singleton] at hother
    exact hne (hother.trans hd.symm)

variable {dirinfo : DirectoryInfo}

variable {metadata : DirectoryMetadata}

theorem mem_keys_insert :
    d ∈ (entry.insert dirinfo metadata).keys ↔ d = dirinfo ∨ d ∈ entry.keys := by
  rw [← AList.mem_keys, ← AList.mem_keys]
  exact AList.mem_insert entry

/-- An admission tells an info that was there whether it has another one beside it now. -/
theorem addDirinfo_tells (hd : d ∈ entry.keys) :
    (addDirinfo entry dirinfo metadata).2.2.Tells d.targetEdgeIdx (HasOther entry d)
      (HasOther (addDirinfo entry dirinfo metadata).1 d) := by
  rw [addDirinfo_fst]
  have hgrow : HasOther entry d → HasOther (entry.insert dirinfo metadata) d := by
    rintro ⟨other, hother, hne⟩
    exact ⟨other, mem_keys_insert.2 (.inr hother), hne⟩
  unfold addDirinfo
  cases hlookup : entry.lookup dirinfo with
  | none =>
    by_cases hsize : size entry = 1
    · -- the info was alone, and the admitted one is beside it now
      have hother : HasOther (entry.insert dirinfo metadata) d := by
        refine ⟨dirinfo, mem_keys_insert.2 (.inl rfl), ?_⟩
        rintro rfl
        rw [AList.lookup_eq_none] at hlookup
        exact hlookup (AList.mem_keys.2 hd)
      simp only [if_pos hsize]
      exact ⟨(begin_of_size_eq_one hd hsize).1, iff_of_true rfl hother⟩
    · simp only [if_neg hsize]
      have hother := hasOther_of_size_ne_one hd hsize
      apply MetadataUpdateRequirement.tells_nothing
      exact iff_of_true (hgrow hother) hother
  | some m =>
    apply MetadataUpdateRequirement.tells_nothing
    refine ⟨?_, hgrow⟩
    rintro ⟨other, hother, hne⟩
    rcases mem_keys_insert.1 hother with rfl | hold
    · exact ⟨other, (mem_keys_iff entry other).2 ⟨m, hlookup⟩, hne⟩
    · exact ⟨other, hold, hne⟩

theorem mem_keys_removeDirinfo :
    d ∈ (removeDirinfo entry dirinfo).1.keys ↔ d ≠ dirinfo ∧ d ∈ entry.keys := by
  rw [mem_keys_iff, mem_keys_iff, lookup_removeDirinfo]
  by_cases h : d = dirinfo <;> simp [h]

/-- An eviction tells an info that stays whether it has another one beside it now. -/
theorem removeDirinfo_tells (hd : d ∈ entry.keys) (hstays : d ≠ dirinfo) :
    (removeDirinfo entry dirinfo).2.2.Tells d.targetEdgeIdx (HasOther entry d)
      (HasOther (removeDirinfo entry dirinfo).1 d) := by
  have hmem : d ∈ (removeDirinfo entry dirinfo).1.keys :=
    mem_keys_removeDirinfo.2 ⟨hstays, hd⟩
  have hshrink : HasOther (removeDirinfo entry dirinfo).1 d → HasOther entry d := by
    rintro ⟨other, hother, hne⟩
    exact ⟨other, (mem_keys_removeDirinfo.1 hother).2, hne⟩
  revert hmem hshrink
  unfold removeDirinfo
  cases hlookup : entry.lookup dirinfo with
  | none => exact fun _ _ => MetadataUpdateRequirement.tells_nothing Iff.rfl
  | some m =>
    intro hmem hshrink
    simp only at hmem hshrink ⊢
    by_cases hsize : size (entry.erase dirinfo) = 1
    · obtain ⟨hbegin, halone⟩ := begin_of_size_eq_one hmem hsize
      simp only [if_pos hsize]
      exact ⟨hbegin, iff_of_false Bool.false_ne_true halone⟩
    · simp only [if_neg hsize]
      have hother := hasOther_of_size_ne_one hmem hsize
      apply MetadataUpdateRequirement.tells_nothing
      exact iff_of_true hother (hshrink hother)

end DirectoryEntry

/-! ## The directory table -/

/-- Directory entries of the keys of one beacon. -/
abbrev DirectoryTable := ConcurrentHashtable DirectoryEntry

/-- Answer of a directory lookup. -/
structure DirectoryLookup where
  isGlobalCached : Bool
  isValidDirectoryExist : Bool
  directoryInfo : DirectoryInfo
  dirinfoSet : List DirectoryInfo
deriving DecidableEq, Repr

namespace DirectoryTable

def getAll (table : DirectoryTable) (key : Key) : Option DirinfoSet :=
  match table.constCallIfExist key DirectoryEntry.getAllDirinfo with
  | none => some (.ofList [])
  | some allDirinfo => do
      let size ← allDirinfo.getDirinfoSetSizeIfComplete
      require (size > 0)
      return allDirinfo

/-- Find a valid directory info of another edge than the source; `draw` is the number that the
random generator draws. -/
def lookup (table : DirectoryTable) (key : Key) (sourceEdgeIdx draw : Nat) :
    Option DirectoryLookup :=
  match table.constCallIfExist key DirectoryEntry.getAllValidDirinfo with
  | none => some ⟨false, false, {}, []⟩
  | some validSet => do
      let nonSource ← validSet.tryToEraseIfComplete ⟨sourceEdgeIdx⟩
      let dirinfoSet ← nonSource.getDirinfoSetIfComplete
      let size ← nonSource.getDirinfoSetSizeIfComplete
      if size > 0 then
        let directoryInfo ← nonSource.getDirinfoIfComplete (draw % size)
        require (directoryInfo.targetEdgeIdx ≠ sourceEdgeIdx)
        return ⟨true, true, directoryInfo, dirinfoSet⟩
      else return ⟨true, false, {}, dirinfoSet⟩

/-- Admit or evict a directory info. Returns whether the key is cached by any edge, and which edge
to notify. -/
def update (table : DirectoryTable) (key : Key) (isAdmit : Bool) (dirinfo : DirectoryInfo)
    (metadata : DirectoryMetadata) : Option (DirectoryTable × Bool × MetadataUpdateRequirement) :=
  if isAdmit then do
    let (newEntry, isAlreadyExist, _) := DirectoryEntry.addDirinfo ∅ dirinfo metadata
    require (isAlreadyExist = false)
    let (table', result) ← table.insertOrCall key newEntry fun entry =>
      let (entry', isAlreadyExist, requirement) := DirectoryEntry.addDirinfo entry dirinfo metadata
      some (entry', false, isAlreadyExist, requirement)
    return (table', true, (result.map Prod.snd).getD {})
  else do
    let (table', result) ← table.callIfExist key fun entry =>
      let (entry', isAlreadyExist, requirement) := DirectoryEntry.removeDirinfo entry dirinfo
      let isEmpty := decide (DirectoryEntry.size entry' = 0)
      some (entry', isEmpty, isAlreadyExist, !isEmpty, requirement)
    match result with
    | none => return (table', false, {})
    | some (_, isGlobalCached, requirement) => return (table', isGlobalCached, requirement)

def isGlobalCached (table : DirectoryTable) (key : Key) : Bool := table.isExist key

def isCachedByGivenEdge (table : DirectoryTable) (key : Key) (edgeIdx : Nat) : Option Bool := do
  let allDirinfo ← getAll table key
  allDirinfo.isExistIfComplete ⟨edgeIdx⟩

/-- Whether an edge other than the given one caches the key. -/
def isNeighborCached (table : DirectoryTable) (key : Key) (edgeIdx : Nat) : Option Bool := do
  let allDirinfo ← getAll table key
  let dirinfos ← allDirinfo.getDirinfoSetIfComplete
  return dirinfos.any fun dirinfo => dirinfo.targetEdgeIdx != edgeIdx

/-- Invalidate every directory info of a stored key and return them all. -/
def invalidateAllDirinfoForKeyIfExist (table : DirectoryTable) (key : Key) :
    Option (DirectoryTable × DirinfoSet) := do
  let (table', result) ← table.callIfExist key fun entry =>
    let (entry', allDirinfo) := DirectoryEntry.invalidateMetadataForAllDirinfoIfExist entry
    some (entry', false, allDirinfo)
  let allDirinfo ← result
  let size ← allDirinfo.getDirinfoSetSizeIfComplete
  require (size > 0)
  return (table', allDirinfo)

/-- Validate one directory info; returns whether the key and whether the info exist. -/
def validateDirinfoForKeyIfExist (table : DirectoryTable) (key : Key) (dirinfo : DirectoryInfo) :
    Option (DirectoryTable × Bool × Bool) := do
  let (table', result) ← table.callIfExist key fun entry =>
    let (entry', isDirinfoExist) :=
      DirectoryEntry.validateMetadataForDirinfoIfExist entry dirinfo
    some (entry', false, isDirinfoExist)
  return (table', result.isSome, result.getD false)

/-! ## What the table's functions store -/

/-- No directory entry that is stored is empty. -/
def NoEmptyEntry (table : DirectoryTable) : Prop :=
  ∀ key entry, table.find key = some entry → entry.entries ≠ []

variable {entry : DirectoryEntry}

theorem keys_ne_nil (h : entry.entries ≠ []) : entry.keys ≠ [] := by
  simpa [AList.keys, keys] using h

variable {table : DirectoryTable}

theorem getAll_eq (h : NoEmptyEntry table) (key : Key) :
    getAll table key = some (.ofList ((table.find key).elim [] AList.keys)) := by
  unfold getAll constCallIfExist
  cases hfind : table.find key with
  | none => rfl
  | some entry =>
    have hpos : 0 < entry.keys.length := length_pos_iff.2 (keys_ne_nil (h key entry hfind))
    simp [DirectoryEntry.getAllDirinfo, getDirinfoSetSizeIfComplete, require, hpos]

theorem isCachedByGivenEdge_isSome (h : NoEmptyEntry table) (key : Key) (edgeIdx : Nat) :
    ∃ b, isCachedByGivenEdge table key edgeIdx = some b := by
  simp [isCachedByGivenEdge, getAll_eq h, isExistIfComplete]

theorem isNeighborCached_eq (h : NoEmptyEntry table) (key : Key) (edgeIdx : Nat) :
    isNeighborCached table key edgeIdx =
      some (((table.find key).elim [] AList.keys).any fun d => d.targetEdgeIdx != edgeIdx) := by
  simp [isNeighborCached, getAll_eq h]

theorem targetEdgeIdx_ne_of_mem_erase {dirinfos : List DirectoryInfo} (h : dirinfos.Nodup)
    {sourceEdgeIdx : Nat} {d : DirectoryInfo} (hd : d ∈ dirinfos.erase ⟨sourceEdgeIdx⟩) :
    d.targetEdgeIdx ≠ sourceEdgeIdx := by
  rintro rfl
  rw [h.mem_erase_iff] at hd
  exact hd.1 rfl

/-- A lookup never aborts: the source was erased from the infos it draws from. -/
theorem lookup_isSome (table : DirectoryTable) (key : Key) (sourceEdgeIdx draw : Nat) :
    ∃ r, lookup table key sourceEdgeIdx draw = some r := by
  unfold lookup constCallIfExist
  cases hfind : table.find key with
  | none => exact ⟨_, rfl⟩
  | some entry =>
    have hnodup := DirectoryEntry.nodup_getAllValid entry
    simp only [map_some, tryToEraseIfComplete,
      getDirinfoSetIfComplete, getDirinfoSetSizeIfComplete,
      getDirinfoIfComplete]
    set valid := DirectoryEntry.getAllValidDirinfo entry with hvalid
    have hcomplete : valid.isComplete = true := isComplete_ofList _
    have hcomplete' : ∀ l, ({ valid with dirinfoSet := l } : DirinfoSet).isComplete = true :=
      fun _ => hcomplete
    simp only [hcomplete, hcomplete', if_true, bind_eq_bind, bind_some]
    split
    · next hpos =>
      have hlt : draw % (valid.dirinfoSet.erase ⟨sourceEdgeIdx⟩).length <
          (valid.dirinfoSet.erase ⟨sourceEdgeIdx⟩).length := Nat.mod_lt _ hpos
      have hne := targetEdgeIdx_ne_of_mem_erase hnodup (getElem_mem hlt)
      rw [getElem?_eq_getElem hlt, bind_some, require_bind_of hne]
      exact ⟨_, rfl⟩
    · exact ⟨_, rfl⟩

variable {table' : DirectoryTable} {key : Key} {dirinfo : DirectoryInfo}
  {metadata : DirectoryMetadata} {isGlobal : Bool} {requirement : MetadataUpdateRequirement}

/-- Admission stores the info with its metadata, and asks for what the update of the entry asks
for. -/
theorem update_insert_spec
    (h : update table key true dirinfo metadata = some (table', isGlobal, requirement)) :
    table'.find = Function.update table.find key
        (some (((table.find key).getD ∅).insert dirinfo metadata)) ∧
      requirement = ((table.find key).map fun entry =>
        (DirectoryEntry.addDirinfo entry dirinfo metadata).2.2).getD {} := by
  simp only [update, if_true, bind_eq_bind, require_bind_eq_some_iff] at h
  obtain ⟨-, h⟩ := h
  rw [Option.bind_eq_some_iff] at h
  obtain ⟨⟨t, result⟩, hcall, h⟩ := h
  simp only [pure_eq_some_iff, Prod.mk.injEq] at h
  obtain ⟨rfl, -, rfl⟩ := h
  rcases insertOrCall_spec hcall with
    ⟨hfind, rfl, hstore⟩ | ⟨entry, entry', r, hfind, hcalled, rfl, hstore⟩
  · rw [hstore, hfind, DirectoryEntry.addDirinfo_fst]
    exact ⟨rfl, rfl⟩
  · simp only [some.injEq, Prod.mk.injEq] at hcalled
    obtain ⟨rfl, -, rfl⟩ := hcalled
    rw [hstore, hfind, DirectoryEntry.addDirinfo_fst]
    exact ⟨rfl, rfl⟩

theorem update_admit_isSome (table : DirectoryTable) (key : Key) (dirinfo : DirectoryInfo)
    (metadata : DirectoryMetadata) :
    ∃ t b r, update table key true dirinfo metadata = some (t, b, r) := by
  have hnew : (DirectoryEntry.addDirinfo ∅ dirinfo metadata).2.1 = false := by
    simp [DirectoryEntry.addDirinfo]
  obtain ⟨t, result, hcall⟩ :=
    insertOrCall_isSome table key (DirectoryEntry.addDirinfo ∅ dirinfo metadata).1
      (fun entry =>
        let (entry', isAlreadyExist, requirement) :=
          DirectoryEntry.addDirinfo entry dirinfo metadata
        some (entry', false, isAlreadyExist, requirement)) fun _ _ => ⟨_, _, rfl⟩
  refine ⟨t, true, (result.map Prod.snd).getD {}, ?_⟩
  simp only [update, if_true, require_bind hnew]
  rw [hcall]
  rfl

/-- The entry after the eviction of one info: dropped when it becomes empty. -/
def evictEntry (dirinfo : DirectoryInfo) (entry : DirectoryEntry) : Option DirectoryEntry :=
  if DirectoryEntry.size (DirectoryEntry.removeDirinfo entry dirinfo).1 = 0 then none
  else some (DirectoryEntry.removeDirinfo entry dirinfo).1

/-- Eviction removes the info from the entry and an empty entry from the table, and asks for what
the update of the entry asks for. -/
theorem update_remove_spec
    (h : update table key false dirinfo metadata = some (table', isGlobal, requirement)) :
    table'.find =
        Function.update table.find key ((table.find key).bind (evictEntry dirinfo)) ∧
      requirement = ((table.find key).map fun entry =>
        (DirectoryEntry.removeDirinfo entry dirinfo).2.2).getD {} := by
  simp only [update, Bool.false_eq_true, if_false, bind_eq_some_iff] at h
  obtain ⟨⟨t, result⟩, hcall, h⟩ := h
  rcases callIfExist_spec hcall with
    ⟨hfind, rfl, rfl⟩ | ⟨entry, entry', isErase, r, hfind, hcalled, rfl, hstore⟩
  · simp only [pure_eq_some_iff, Prod.mk.injEq] at h
    obtain ⟨rfl, -, rfl⟩ := h
    have hself := update_eq_self key t.find
    rw [hfind] at hself ⊢
    exact ⟨hself.symm, rfl⟩
  · simp only [pure_eq_some_iff, Prod.mk.injEq] at h
    simp only [some.injEq, Prod.mk.injEq] at hcalled
    obtain ⟨rfl, rfl, rfl⟩ := hcalled
    obtain ⟨rfl, -, rfl⟩ := h
    rw [hstore, hfind, bind_some, evictEntry]
    simp only [decide_eq_true_eq, map_some, getD_some, and_true]

theorem update_evict_isSome (table : DirectoryTable) (key : Key) (dirinfo : DirectoryInfo)
    (metadata : DirectoryMetadata) :
    ∃ t b r, update table key false dirinfo metadata = some (t, b, r) := by
  obtain ⟨t, result, hcall⟩ :=
    callIfExist_isSome table key
      (fun entry =>
        let (entry', isAlreadyExist, requirement) := DirectoryEntry.removeDirinfo entry dirinfo
        let isEmpty := decide (DirectoryEntry.size entry' = 0)
        some (entry', isEmpty, isAlreadyExist, !isEmpty, requirement)) fun _ _ => ⟨_, rfl⟩
  simp only [update, Bool.false_eq_true, if_false, hcall, some_bind]
  cases result with
  | none => exact ⟨_, _, _, rfl⟩
  | some r => exact ⟨_, _, _, rfl⟩

theorem exists_lookup_of_size_eq_one (h : DirectoryEntry.size entry = 1) :
    ∃ d m, entry.lookup d = some m := by
  refine exists_lookup_of_entries_ne_nil entry ?_
  intro hnil
  simp [DirectoryEntry.size, hnil] at h

/-- An admission asks for a notification only when another edge caches the key. -/
theorem requirement_insert
    (h : update table key true dirinfo metadata = some (table', isGlobal, requirement)) :
    requirement.isFromMultipleToSingle = false ∧
      (requirement.isFromSingleToMultiple = true →
        ∃ entry d m, table'.find key = some entry ∧ entry.lookup d = some m ∧ d ≠ dirinfo) := by
  obtain ⟨hstore, rfl⟩ := update_insert_spec h
  cases hfind : table.find key with
  | none => simp
  | some entry =>
    simp only [map_some, getD_some, DirectoryEntry.addDirinfo]
    cases hlookup : entry.lookup dirinfo with
    | some m => simp
    | none =>
      simp only
      split
      · next hone =>
        refine ⟨rfl, fun _ => ?_⟩
        obtain ⟨d, m, hd⟩ := exists_lookup_of_size_eq_one hone
        have hne : d ≠ dirinfo := by
          rintro rfl
          rw [hlookup] at hd
          cases hd
        refine ⟨entry.insert dirinfo metadata, d, m, ?_, ?_, hne⟩
        · rw [hstore, hfind, update_self]
          rfl
        · rw [lookup_insert_eq, if_neg hne, hd]
      · simp

/-- An eviction asks for a notification only when another edge caches the key. -/
theorem requirement_remove
    (h : update table key false dirinfo metadata = some (table', isGlobal, requirement)) :
    requirement.isFromSingleToMultiple = false ∧
      (requirement.isFromMultipleToSingle = true →
        ∃ entry d m, table'.find key = some entry ∧ entry.lookup d = some m ∧ d ≠ dirinfo) := by
  obtain ⟨hstore, rfl⟩ := update_remove_spec h
  cases hfind : table.find key with
  | none => simp
  | some entry =>
    rw [map_some, getD_some]
    have hlookup := DirectoryEntry.lookup_removeDirinfo entry dirinfo
    rw [hfind, bind_some, evictEntry] at hstore
    cases hold : entry.lookup dirinfo with
    | none => simp [DirectoryEntry.removeDirinfo, hold]
    | some m =>
      simp only [DirectoryEntry.removeDirinfo, hold] at hlookup hstore ⊢
      split
      · next hone =>
        refine ⟨rfl, fun _ => ?_⟩
        obtain ⟨d, m, hd⟩ := exists_lookup_of_size_eq_one hone
        rw [if_neg (by omega)] at hstore
        refine ⟨_, d, m, by rw [hstore, Function.update_self], hd, ?_⟩
        rintro rfl
        rw [hlookup, if_pos rfl] at hd
        cases hd
      · simp

variable {isAdmit isKeyExist isDirinfoExist : Bool}

/-- An update asks for what the update of the entry asks for. -/
theorem update_requirement
    (h : update table key isAdmit dirinfo metadata = some (table', isGlobal, requirement)) :
    requirement = ((table.find key).map fun entry =>
      if isAdmit = true then (DirectoryEntry.addDirinfo entry dirinfo metadata).2.2
      else (DirectoryEntry.removeDirinfo entry dirinfo).2.2).getD {} := by
  cases isAdmit with
  | true => exact (update_insert_spec h).2
  | false => exact (update_remove_spec h).2

variable {allDirinfo : DirinfoSet}

/-- Invalidation keeps the infos of the key and makes each of them invalid. -/
theorem invalidateAll_spec
    (h : invalidateAllDirinfoForKeyIfExist table key = some (table', allDirinfo)) :
    ∃ entry, table.find key = some entry ∧
      table'.find = Function.update table.find key
        (some (DirectoryEntry.invalidateMetadataForAllDirinfoIfExist entry).1) := by
  simp only [invalidateAllDirinfoForKeyIfExist, bind_eq_some_iff] at h
  obtain ⟨⟨t, result⟩, hcall, allDirinfo', hresult, h⟩ := h
  have ht : t = table' := by
    obtain ⟨size, -, -, -, h⟩ := h
    simp only [pure_eq_some_iff, Prod.mk.injEq] at h
    exact h.1
  subst ht
  rcases callIfExist_spec hcall with
    ⟨-, hnone, -⟩ | ⟨entry, entry', isErase, r, hfind, hcalled, -, hstore⟩
  · rw [hnone] at hresult
    cases hresult
  · simp only [some.injEq, Prod.mk.injEq] at hcalled
    obtain ⟨rfl, rfl, -⟩ := hcalled
    refine ⟨entry, hfind, ?_⟩
    rw [hstore]
    rfl

/-- Invalidation returns all infos of the key. -/
theorem invalidateAll_allDirinfo
    (h : invalidateAllDirinfoForKeyIfExist table key = some (table', allDirinfo)) :
    ∃ entry, table.find key = some entry ∧ allDirinfo.dirinfoSet = entry.keys := by
  simp only [invalidateAllDirinfoForKeyIfExist, bind_eq_some_iff] at h
  obtain ⟨⟨t, result⟩, hcall, allDirinfo', hresult, size, -, -, -, h⟩ := h
  simp only [pure_eq_some_iff, Prod.mk.injEq] at h
  obtain ⟨-, rfl⟩ := h
  rcases callIfExist_spec hcall with
    ⟨-, hnone, -⟩ | ⟨entry, entry', isErase, r, hfind, hcalled, hr, -⟩
  · rw [hnone] at hresult
    cases hresult
  · simp only [some.injEq, Prod.mk.injEq] at hcalled
    obtain ⟨-, -, rfl⟩ := hcalled
    rw [hr, some.injEq] at hresult
    refine ⟨entry, hfind, ?_⟩
    rw [← hresult]
    exact dirinfoSet_ofList _

/-- Invalidation aborts only for a key that is not stored. -/
theorem invalidateAll_isSome (h : NoEmptyEntry table) (hkey : isGlobalCached table key = true) :
    ∃ t all, invalidateAllDirinfoForKeyIfExist table key = some (t, all) := by
  obtain ⟨entry, hfind⟩ := isSome_iff_exists.1 hkey
  have hpos : 0 < entry.keys.length := length_pos_iff.2 (keys_ne_nil (h key entry hfind))
  simp [invalidateAllDirinfoForKeyIfExist, callIfExist, hfind,
    DirectoryEntry.invalidateMetadataForAllDirinfoIfExist, getDirinfoSetSizeIfComplete,
    require, hpos]

/-- Validation makes one info of the key valid, if the key and the info exist. -/
theorem validate_spec (h : validateDirinfoForKeyIfExist table key dirinfo =
      some (table', isKeyExist, isDirinfoExist)) :
    table'.find = Function.update table.find key ((table.find key).map fun entry =>
      (DirectoryEntry.validateMetadataForDirinfoIfExist entry dirinfo).1) := by
  simp only [validateDirinfoForKeyIfExist, bind_eq_some_iff] at h
  obtain ⟨⟨t, result⟩, hcall, h⟩ := h
  simp only [pure_eq_some_iff, Prod.mk.injEq] at h
  obtain ⟨rfl, -⟩ := h
  rcases callIfExist_spec hcall with
    ⟨hfind, -, rfl⟩ | ⟨entry, entry', isErase, r, hfind, hcalled, -, hstore⟩
  · have hself := update_eq_self key t.find
    rw [hfind] at hself ⊢
    exact hself.symm
  · simp only [some.injEq, Prod.mk.injEq] at hcalled
    obtain ⟨rfl, rfl, -⟩ := hcalled
    rw [hstore, hfind]
    rfl

theorem validate_isSome (table : DirectoryTable) (key : Key) (dirinfo : DirectoryInfo) :
    ∃ t b b', validateDirinfoForKeyIfExist table key dirinfo = some (t, b, b') := by
  obtain ⟨t, result, hcall⟩ :=
    callIfExist_isSome table key
      (fun entry =>
        let (entry', isDirinfoExist) :=
          DirectoryEntry.validateMetadataForDirinfoIfExist entry dirinfo
        some (entry', false, isDirinfoExist)) fun _ _ => ⟨_, rfl⟩
  refine ⟨t, result.isSome, result.getD false, ?_⟩
  simp only [validateDirinfoForKeyIfExist, hcall]
  rfl

/-! ## Stored entries stay nonempty -/

theorem noEmptyEntry_of_find {x : Option DirectoryEntry} (h : NoEmptyEntry table)
    (hfind : table'.find = Function.update table.find key x)
    (hx : ∀ entry, x = some entry → ∃ d m, entry.lookup d = some m) : NoEmptyEntry table' := by
  intro k entry hk
  rw [hfind, update_apply] at hk
  split at hk
  · exact (DirectoryEntry.entries_ne_nil_iff entry).2 (hx entry hk)
  · exact h k entry hk

theorem update_noEmptyEntry (h : NoEmptyEntry table)
    (hupdate : update table key isAdmit dirinfo metadata = some (table', isGlobal, requirement)) :
    NoEmptyEntry table' := by
  cases isAdmit with
  | true =>
    refine noEmptyEntry_of_find h (update_insert_spec hupdate).1 ?_
    rintro _ ⟨⟩
    exact ⟨dirinfo, metadata, AList.lookup_insert _⟩
  | false =>
    refine noEmptyEntry_of_find h (update_remove_spec hupdate).1 ?_
    intro entry hentry
    obtain ⟨old, -, hold⟩ := bind_eq_some_iff.1 hentry
    unfold evictEntry at hold
    split at hold
    · cases hold
    · next hsize =>
      cases hold
      refine UnorderedMap.exists_lookup_of_entries_ne_nil _ ?_
      intro hnil
      exact hsize (by rw [DirectoryEntry.size, hnil]; rfl)

theorem invalidateAll_noEmptyEntry (h : NoEmptyEntry table)
    (hinvalidate : invalidateAllDirinfoForKeyIfExist table key = some (table', allDirinfo)) :
    NoEmptyEntry table' := by
  obtain ⟨entry, hentry, hfind⟩ := invalidateAll_spec hinvalidate
  refine noEmptyEntry_of_find h hfind ?_
  rintro _ ⟨⟩
  obtain ⟨d, m, hd⟩ := (DirectoryEntry.entries_ne_nil_iff entry).1 (h key entry hentry)
  exact ⟨d, _, by rw [DirectoryEntry.lookup_invalidateAll, hd]; rfl⟩

theorem validate_noEmptyEntry (h : NoEmptyEntry table)
    (hvalidate : validateDirinfoForKeyIfExist table key dirinfo =
      some (table', isKeyExist, isDirinfoExist)) : NoEmptyEntry table' := by
  refine noEmptyEntry_of_find h (validate_spec hvalidate) ?_
  intro entry hentry
  obtain ⟨old, hold, rfl⟩ := map_eq_some_iff.1 hentry
  obtain ⟨d, m, hd⟩ := (DirectoryEntry.entries_ne_nil_iff old).1 (h key old hold)
  by_cases heq : d = dirinfo
  · exact ⟨d, _, by rw [DirectoryEntry.lookup_validate, if_pos heq, hd]; rfl⟩
  · exact ⟨d, m, by rw [DirectoryEntry.lookup_validate, if_neg heq, hd]⟩

end DirectoryTable

end Covered.Cooperation
