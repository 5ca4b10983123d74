import Covered.Cooperation.BlockTracker
import Covered.Cooperation.DirectoryTable
import Covered.Lib.Execution

/-!
# The cooperation wrapper of a beacon

A beacon answers directory lookups, directory updates, write-lock acquisitions and write-lock
releases for its keys. `CooperationWrapper` joins the directory table and the block tracker; each
of its functions holds the lock of its key, so it is one atomic step. The cache server of the beacon
edge calls the functions named `ByCacheServer`, the beacon server calls the others for the requests
of other edges.

`step` is one operation, and a run is any interleaving of operations. `Invariant` says what holds
in every state reached: a key that is being written has no valid directory info, a stored MSI
metadata has its write flag set, and no directory entry is empty.
-/

set_option autoImplicit false

namespace Covered.Cooperation

open Common Lib Lib.Checked Lib.Execution Function DirectoryTable BlockTracker DirectoryEntry
open Option hiding bind_eq_some_iff

/-- Result of a write-lock acquisition. -/
inductive LockResult
  | kSuccess
  | kFailure
  | kNoneed
deriving DecidableEq, Repr

/-- Directory table and block tracker of one beacon. -/
structure CooperationWrapper where
  directoryTable : DirectoryTable := {}
  blockTracker : BlockTracker := {}

/-- Answer of a lookup at the beacon. -/
structure LookupReply where
  isBeingWritten : Bool
  isGlobalCached : Bool
  isValidDirectoryExist : Bool
  directoryInfo : DirectoryInfo
  dirinfoSet : List DirectoryInfo
  isSourceCached : Bool
deriving DecidableEq, Repr

namespace CooperationWrapper

/-! ## The functions of the wrapper -/

/-- The directory infos to answer with: none of a key that is being written. -/
def lookupUnlessBeingWritten (w : CooperationWrapper) (key : Key) (sourceEdgeIdx draw : Nat)
    (isBeingWritten : Bool) : Option DirectoryLookup :=
  if isBeingWritten = false then DirectoryTable.lookup w.directoryTable key sourceEdgeIdx draw
  else some ⟨DirectoryTable.isGlobalCached w.directoryTable key, false, {}, []⟩

/-- Look a key up after its write flag was read. -/
def lookupDirectoryTable (w : CooperationWrapper) (key : Key) (sourceEdgeIdx draw : Nat)
    (isBeingWritten : Bool) : Option LookupReply := do
  let found ← lookupUnlessBeingWritten w key sourceEdgeIdx draw isBeingWritten
  let isSourceCached ← DirectoryTable.isCachedByGivenEdge w.directoryTable key sourceEdgeIdx
  return ⟨isBeingWritten, found.isGlobalCached, found.isValidDirectoryExist, found.directoryInfo,
    found.dirinfoSet, isSourceCached⟩

def lookupDirectoryTableByCacheServer (w : CooperationWrapper) (key : Key)
    (sourceEdgeIdx draw : Nat) : Option LookupReply :=
  lookupDirectoryTable w key sourceEdgeIdx draw
    (BlockTracker.isBeingWrittenForKey w.blockTracker key)

/-- Lookup of another edge, whose address is blocked if the key is being written. -/
def lookupDirectoryTableByBeaconServer (w : CooperationWrapper) (key : Key) (sourceEdgeIdx : Nat)
    (addr : NetworkAddr) (draw : Nat) : Option (CooperationWrapper × LookupReply) := do
  let (tracker, isBeingWritten) ←
    BlockTracker.blockEdgeForKeyIfExistAndBeingWritten w.blockTracker key addr
  let w' := { w with blockTracker := tracker }
  let reply ← lookupDirectoryTable w' key sourceEdgeIdx draw isBeingWritten
  return (w', reply)

/-- Answer of a directory update. -/
structure UpdateReply where
  isGlobalCached : Bool
  isBeingWritten : Bool
  isNeighborCached : Bool
  requirement : MetadataUpdateRequirement

/-- Admit or evict the source edge; an admission during a write is stored as invalid. -/
def updateDirectoryTable (w : CooperationWrapper) (key : Key) (sourceEdgeIdx : Nat)
    (isAdmit : Bool) (dirinfo : DirectoryInfo) : Option (CooperationWrapper × UpdateReply) := do
  require (sourceEdgeIdx = dirinfo.targetEdgeIdx)
  let isBeingWritten :=
    if isAdmit then BlockTracker.isBeingWrittenForKey w.blockTracker key else false
  let metadata : DirectoryMetadata := ⟨!isBeingWritten⟩
  let (table, isGlobalCached, requirement) ←
    DirectoryTable.update w.directoryTable key isAdmit dirinfo metadata
  let isNeighborCached ← DirectoryTable.isNeighborCached table key sourceEdgeIdx
  require (requirement.isFromSingleToMultiple = true → isAdmit = true ∧ isNeighborCached = true)
  require (requirement.isFromMultipleToSingle = true → isAdmit = false ∧ isNeighborCached = true)
  return ({ w with directoryTable := table },
    ⟨isGlobalCached, isBeingWritten, isNeighborCached, requirement⟩)

/-- Answer of an acquisition: the result, the infos to invalidate on success, and whether the
source caches the key. -/
structure AcquireReply where
  lockResult : LockResult
  allDirinfo : List DirectoryInfo
  isSourceCached : Bool
deriving DecidableEq

/-- Set the write flag of a key that is cached anywhere and invalidate its directory infos. -/
def lockIfGlobalCached (w : CooperationWrapper) (key : Key)
    (cas : BlockTracker → Option (BlockTracker × Bool)) :
    Option (CooperationWrapper × LockResult × List DirectoryInfo) :=
  if DirectoryTable.isGlobalCached w.directoryTable key = true then do
    let (tracker, isSuccessful) ← cas w.blockTracker
    if isSuccessful then
      let (table, allDirinfo) ←
        DirectoryTable.invalidateAllDirinfoForKeyIfExist w.directoryTable key
      return (⟨table, tracker⟩, .kSuccess, allDirinfo.dirinfoSet)
    else return ({ w with blockTracker := tracker }, .kFailure, [])
  else some (w, .kNoneed, [])

/-- An acquisition, with the way it sets the write flag as a parameter: the two entry points of the
source differ in it only. -/
def acquireLocalWritelock (w : CooperationWrapper) (key : Key) (sourceEdgeIdx : Nat)
    (cas : BlockTracker → Option (BlockTracker × Bool)) :
    Option (CooperationWrapper × AcquireReply) := do
  let (w', lockResult, allDirinfo) ← lockIfGlobalCached w key cas
  let isSourceCached ← DirectoryTable.isCachedByGivenEdge w'.directoryTable key sourceEdgeIdx
  return (w', ⟨lockResult, allDirinfo, isSourceCached⟩)

def acquireLocalWritelockByCacheServer (w : CooperationWrapper) (key : Key)
    (sourceEdgeIdx : Nat) : Option (CooperationWrapper × AcquireReply) :=
  acquireLocalWritelock w key sourceEdgeIdx fun tracker =>
    BlockTracker.casWriteflagForKey tracker key

def acquireLocalWritelockByBeaconServer (w : CooperationWrapper) (key : Key) (sourceEdgeIdx : Nat)
    (addr : NetworkAddr) : Option (CooperationWrapper × AcquireReply) :=
  acquireLocalWritelock w key sourceEdgeIdx fun tracker =>
    BlockTracker.casWriteflagOrBlockEdgeForKey tracker key addr

/-- Answer of a release: the edges to notify and whether the source caches the key. -/
structure ReleaseReply where
  blockedEdges : List NetworkAddr
  isSourceCached : Bool
deriving DecidableEq

/-- Finish a write and validate the sender's directory info, if it is still there. -/
def releaseLocalWritelock (w : CooperationWrapper) (key : Key) (sourceEdgeIdx : Nat)
    (senderDirinfo : DirectoryInfo) : Option (CooperationWrapper × ReleaseReply) := do
  let (tracker, blockedEdges) ←
    BlockTracker.unblockAllEdgesAndFinishWriteForKeyIfExist w.blockTracker key
  let (table, _, _) ←
    DirectoryTable.validateDirinfoForKeyIfExist w.directoryTable key senderDirinfo
  let isSourceCached ← DirectoryTable.isCachedByGivenEdge table key sourceEdgeIdx
  return (⟨table, tracker⟩, ⟨blockedEdges, isSourceCached⟩)

/-! ## Operations in any order -/

/-- One operation at the beacon. -/
inductive Operation
  | lookupByCacheServer (key : Key) (sourceEdgeIdx draw : Nat)
  | lookupByBeaconServer (key : Key) (sourceEdgeIdx : Nat) (addr : NetworkAddr) (draw : Nat)
  | updateDirectory (key : Key) (sourceEdgeIdx : Nat) (isAdmit : Bool) (dirinfo : DirectoryInfo)
  | acquireByCacheServer (key : Key) (sourceEdgeIdx : Nat)
  | acquireByBeaconServer (key : Key) (sourceEdgeIdx : Nat) (addr : NetworkAddr)
  | release (key : Key) (sourceEdgeIdx : Nat) (senderDirinfo : DirectoryInfo)
deriving DecidableEq

/-- Answer of one operation. -/
inductive Reply
  | lookup (reply : LookupReply)
  | update (reply : UpdateReply)
  | acquire (reply : AcquireReply)
  | release (reply : ReleaseReply)

/-- One operation; `none` is a failed assertion. -/
def step (w : CooperationWrapper) : Operation → Option (CooperationWrapper × Reply)
  | .lookupByCacheServer key source draw =>
      (lookupDirectoryTableByCacheServer w key source draw).map fun reply => (w, .lookup reply)
  | .lookupByBeaconServer key source addr draw =>
      (lookupDirectoryTableByBeaconServer w key source addr draw).map fun (w', reply) =>
        (w', .lookup reply)
  | .updateDirectory key source isAdmit dirinfo =>
      (updateDirectoryTable w key source isAdmit dirinfo).map fun (w', reply) =>
        (w', .update reply)
  | .acquireByCacheServer key source =>
      (acquireLocalWritelockByCacheServer w key source).map fun (w', reply) =>
        (w', .acquire reply)
  | .acquireByBeaconServer key source addr =>
      (acquireLocalWritelockByBeaconServer w key source addr).map fun (w', reply) =>
        (w', .acquire reply)
  | .release key source dirinfo =>
      (releaseLocalWritelock w key source dirinfo).map fun (w', reply) => (w', .release reply)

variable {w w' : CooperationWrapper}

/-- The call behind an operation that did not abort. -/
theorem step_cases {op : Operation} {reply : Reply} (h : step w op = some (w', reply)) :
    match op with
    | .lookupByCacheServer key source draw => w' = w ∧ ∃ r,
        lookupDirectoryTableByCacheServer w key source draw = some r ∧ reply = .lookup r
    | .lookupByBeaconServer key source addr draw => ∃ r,
        lookupDirectoryTableByBeaconServer w key source addr draw = some (w', r) ∧
          reply = .lookup r
    | .updateDirectory key source isAdmit dirinfo => ∃ r,
        updateDirectoryTable w key source isAdmit dirinfo = some (w', r) ∧ reply = .update r
    | .acquireByCacheServer key source => ∃ r,
        acquireLocalWritelockByCacheServer w key source = some (w', r) ∧ reply = .acquire r
    | .acquireByBeaconServer key source addr => ∃ r,
        acquireLocalWritelockByBeaconServer w key source addr = some (w', r) ∧
          reply = .acquire r
    | .release key source dirinfo => ∃ r,
        releaseLocalWritelock w key source dirinfo = some (w', r) ∧ reply = .release r := by
  cases op with
  | lookupByCacheServer =>
    obtain ⟨r, hr, heq⟩ := map_eq_some_iff.1 h
    obtain ⟨rfl, rfl⟩ := Prod.mk.inj heq
    exact ⟨rfl, r, hr, rfl⟩
  | _ =>
    obtain ⟨⟨w₁, r⟩, hr, heq⟩ := map_eq_some_iff.1 h
    obtain ⟨rfl, rfl⟩ := Prod.mk.inj heq
    exact ⟨r, hr, rfl⟩

/-- The beacon before any operation. -/
def initial : CooperationWrapper := {}

/-- A key is being written. -/
def isBeingWritten (w : CooperationWrapper) (key : Key) : Bool :=
  BlockTracker.isBeingWrittenForKey w.blockTracker key

/-- The metadata of a directory info of a key. -/
def dirinfo? (w : CooperationWrapper) (key : Key) (d : DirectoryInfo) : Option DirectoryMetadata :=
  (w.directoryTable.find key).bind fun entry => entry.lookup d

/-- The blocklist of a key that is being written. -/
def blocked (w : CooperationWrapper) (key : Key) : Option (List NetworkAddr) :=
  BlockTracker.blocked w.blockTracker key

/-! ## The invariant -/

/-- What holds in every state of a run. -/
structure Invariant (w : CooperationWrapper) : Prop where
  all_writing : BlockTracker.AllWriting w.blockTracker
  no_empty : DirectoryTable.NoEmptyEntry w.directoryTable
  written_invalid : ∀ key d m, w.isBeingWritten key = true → w.dirinfo? key d = some m →
    m.isValid = false

theorem invariant_initial : Invariant initial where
  all_writing := by
    intro key m h
    simp [initial] at h
  no_empty := by
    intro key entry h
    simp [initial] at h
  written_invalid := by
    intro key d m _ h
    simp [initial, dirinfo?] at h

section StepLemmas

variable {w w' : CooperationWrapper} {key : Key}

/-- An operation on one key keeps the invariant if no entry gets empty and, when the key is being
written, its new entry is invalid throughout. -/
theorem Invariant.of_key (hinv : Invariant w) (hall : BlockTracker.AllWriting w'.blockTracker)
    (hframe : ∀ k, k ≠ key → w'.blocked k = w.blocked k) {x : Option DirectoryEntry}
    (hfind : w'.directoryTable.find = update w.directoryTable.find key x)
    (hempty : DirectoryTable.NoEmptyEntry w'.directoryTable)
    (hinvalid : ∀ l entry d m, w'.blocked key = some l → x = some entry →
      entry.lookup d = some m → m.isValid = false) : Invariant w' where
  all_writing := hall
  no_empty := hempty
  written_invalid := by
    intro k d m hwritten hd
    obtain ⟨l, hl⟩ := (isBeingWritten_iff hall k).1 hwritten
    obtain ⟨entry, hentry, hlookup⟩ := bind_eq_some_iff.1 hd
    rw [hfind, update_apply] at hentry
    by_cases hk : k = key
    · subst hk
      rw [if_pos rfl] at hentry
      exact hinvalid l entry d m hl hentry hlookup
    · rw [if_neg hk] at hentry
      have hl' : BlockTracker.blocked w.blockTracker k = some l := (hframe k hk).symm.trans hl
      have hw := (isBeingWritten_iff hinv.all_writing k).2 ⟨l, hl'⟩
      exact hinv.written_invalid k d m hw (by rw [dirinfo?, hentry]; exact hlookup)

/-- An operation that leaves the directory table alone keeps the invariant if it blocks edges of
keys that are being written already. -/
theorem Invariant.of_blockTracker (hinv : Invariant w)
    (hall : BlockTracker.AllWriting w'.blockTracker)
    (htable : w'.directoryTable = w.directoryTable)
    (hframe : ∀ k l', w'.blocked k = some l' → ∃ l, w.blocked k = some l) : Invariant w' where
  all_writing := hall
  no_empty := by
    rw [htable]
    exact hinv.no_empty
  written_invalid := by
    intro k d m hwritten hd
    obtain ⟨l', hl'⟩ := (isBeingWritten_iff hall k).1 hwritten
    have hw := (isBeingWritten_iff hinv.all_writing k).2 (hframe k l' hl')
    rw [dirinfo?, htable] at hd
    exact hinv.written_invalid k d m hw hd

theorem blocked_update_exists {tracker' : BlockTracker} {l l' : List NetworkAddr}
    (hl : w.blocked key = some l)
    (h : BlockTracker.blocked tracker' =
      update (BlockTracker.blocked w.blockTracker) key (some l')) (k : Key)
    (l'' : List NetworkAddr) (hk : BlockTracker.blocked tracker' k = some l'') :
    ∃ l, w.blocked k = some l := by
  by_cases hkk : k = key
  · subst hkk
    exact ⟨l, hl⟩
  · rw [h, update_of_ne hkk] at hk
    exact ⟨l'', hk⟩

/-! ## What each operation does -/

variable {source : Nat}

/-- The lookup after the flag was read: it answers with the flag, and with no valid directory info
if the flag is set. -/
theorem lookupDirectoryTable_spec {draw : Nat} {flag : Bool} {reply : LookupReply}
    (h : lookupDirectoryTable w key source draw flag = some reply) :
    reply.isBeingWritten = flag ∧ (flag = true → reply.isValidDirectoryExist = false) := by
  simp only [lookupDirectoryTable, bind_eq_some_iff] at h
  obtain ⟨found, hfound, cached, -, h⟩ := h
  simp only [pure_eq_some_iff] at h
  subst h
  refine ⟨rfl, ?_⟩
  rintro rfl
  simp only [lookupUnlessBeingWritten, Bool.true_eq_false, if_false, some.injEq] at hfound
  rw [← hfound]

theorem lookupDirectoryTable_isSome (hempty : DirectoryTable.NoEmptyEntry w.directoryTable)
    (key : Key) (source draw : Nat) (flag : Bool) :
    ∃ reply, lookupDirectoryTable w key source draw flag = some reply := by
  obtain ⟨cached, hcached⟩ := isCachedByGivenEdge_isSome hempty key source
  obtain ⟨found, hfound⟩ := lookup_isSome w.directoryTable key source draw
  cases flag with
  | false => simp [lookupDirectoryTable, lookupUnlessBeingWritten, hcached, hfound]
  | true => simp [lookupDirectoryTable, lookupUnlessBeingWritten, hcached]

/-- Lookup through the beacon server: an edge that is told to wait enters the blocklist. -/
theorem lookupByBeaconServer_spec (hinv : Invariant w) {draw : Nat} {addr : NetworkAddr}
    {reply : LookupReply}
    (h : lookupDirectoryTableByBeaconServer w key source addr draw = some (w', reply)) :
    (w.blocked key = none ∧ w' = w ∧ reply.isBeingWritten = false) ∨
      ∃ l, w.blocked key = some l ∧ addr ∉ l ∧ reply.isBeingWritten = true ∧
        reply.isValidDirectoryExist = false ∧ w'.directoryTable = w.directoryTable ∧
        BlockTracker.AllWriting w'.blockTracker ∧
        w'.blocked = update w.blocked key (some (addr :: l)) := by
  simp only [lookupDirectoryTableByBeaconServer, bind_eq_some_iff] at h
  obtain ⟨⟨tracker, flag⟩, hblock, reply', hlookup, h⟩ := h
  simp only [pure_eq_some_iff, Prod.mk.injEq] at h
  obtain ⟨rfl, rfl⟩ := h
  obtain ⟨hflag, hvalid⟩ := lookupDirectoryTable_spec hlookup
  have hspec := blockEdge_spec hinv.all_writing key addr
  cases hb : BlockTracker.blocked w.blockTracker key with
  | none =>
    rw [hb] at hspec
    rw [hspec] at hblock
    obtain ⟨rfl, rfl⟩ := Prod.mk.inj (some.inj hblock)
    exact .inl ⟨hb, rfl, hflag⟩
  | some l =>
    simp only [hb] at hspec
    split at hspec
    · rw [hspec] at hblock
      cases hblock
    · next hmem =>
      obtain ⟨tracker', hstep, hall, hblocked⟩ := hspec
      rw [hstep] at hblock
      obtain ⟨rfl, rfl⟩ := Prod.mk.inj (some.inj hblock)
      exact .inr ⟨l, hb, hmem, hflag, hvalid rfl, rfl, hall, hblocked⟩

/-- Update of the directory: the block tracker is left alone, and the entry gets or loses the
source's info; an admission during a write is invalid. -/
theorem updateDirectoryTable_spec (hinv : Invariant w) {isAdmit : Bool} {dirinfo : DirectoryInfo}
    {reply : UpdateReply} (h : updateDirectoryTable w key source isAdmit dirinfo = some (w', reply))
    :
    w'.blockTracker = w.blockTracker ∧ DirectoryTable.NoEmptyEntry w'.directoryTable ∧
      w'.directoryTable.find = update w.directoryTable.find key
        (if isAdmit = true then
          some (((w.directoryTable.find key).getD ∅).insert dirinfo ⟨!w.isBeingWritten key⟩)
        else (w.directoryTable.find key).bind (evictEntry dirinfo)) := by
  simp only [updateDirectoryTable, bind_eq_bind, require_bind_eq_some_iff] at h
  obtain ⟨-, h⟩ := h
  simp only [Option.bind_eq_some_iff] at h
  obtain ⟨⟨table, isGlobal, requirement⟩, hupdate, neighbor, -, -, -, -, -, h⟩ := h
  simp only [pure_eq_some_iff, Prod.mk.injEq] at h
  obtain ⟨rfl, -⟩ := h
  refine ⟨rfl, update_noEmptyEntry hinv.no_empty hupdate, ?_⟩
  cases isAdmit with
  | true => exact (update_insert_spec hupdate).1
  | false => exact (update_remove_spec hupdate).1

/-- Acquisition of a write lock, for both ways to set the flag. -/
theorem acquireLocalWritelock_spec (hinv : Invariant w)
    {cas : BlockTracker → Option (BlockTracker × Bool)} {reply : AcquireReply}
    (h : acquireLocalWritelock w key source cas = some (w', reply)) :
    (isGlobalCached w.directoryTable key = false ∧ w' = w ∧
        reply.lockResult = .kNoneed) ∨
      (isGlobalCached w.directoryTable key = true ∧
        cas w.blockTracker = some (w'.blockTracker, true) ∧ reply.lockResult = .kSuccess ∧
        DirectoryTable.NoEmptyEntry w'.directoryTable ∧
        ∃ entry, w.directoryTable.find key = some entry ∧
          w'.directoryTable.find = update w.directoryTable.find key
            (some (invalidateMetadataForAllDirinfoIfExist entry).1)) ∨
      (isGlobalCached w.directoryTable key = true ∧
        cas w.blockTracker = some (w'.blockTracker, false) ∧ reply.lockResult = .kFailure ∧
        w'.directoryTable = w.directoryTable) := by
  simp only [acquireLocalWritelock, bind_eq_some_iff] at h
  obtain ⟨⟨w'', result, infos⟩, hcase, cached, -, h⟩ := h
  simp only [pure_eq_some_iff, Prod.mk.injEq] at h
  obtain ⟨rfl, rfl⟩ := h
  unfold lockIfGlobalCached at hcase
  split at hcase
  · next hglobal =>
    simp only [bind_eq_bind, Option.bind_eq_some_iff] at hcase
    obtain ⟨⟨tracker, isSuccessful⟩, hcas, hcase⟩ := hcase
    cases isSuccessful with
    | true =>
      simp only [if_true, Option.bind_eq_some_iff] at hcase
      obtain ⟨⟨table, all⟩, hinvalidate, hcase⟩ := hcase
      simp only [pure_eq_some_iff, Prod.mk.injEq] at hcase
      obtain ⟨rfl, rfl, -⟩ := hcase
      exact .inr (.inl ⟨hglobal, hcas, rfl,
        invalidateAll_noEmptyEntry hinv.no_empty hinvalidate,
        invalidateAll_spec hinvalidate⟩)
    | false =>
      simp only [Bool.false_eq_true, if_false, pure_eq_some_iff, Prod.mk.injEq] at hcase
      obtain ⟨rfl, rfl, -⟩ := hcase
      exact .inr (.inr ⟨hglobal, hcas, rfl, rfl⟩)
  · next hglobal =>
    simp only [some.injEq, Prod.mk.injEq] at hcase
    obtain ⟨rfl, rfl, -⟩ := hcase
    exact .inl ⟨by simpa using hglobal, rfl, rfl⟩

/-- Release of a write lock: the blocklist is returned and forgotten, and the sender's info is
validated. -/
theorem releaseLocalWritelock_spec (hinv : Invariant w) {dirinfo : DirectoryInfo}
    {reply : ReleaseReply} (h : releaseLocalWritelock w key source dirinfo = some (w', reply)) :
    w.blocked key = some reply.blockedEdges ∧ BlockTracker.AllWriting w'.blockTracker ∧
      w'.blocked = update w.blocked key none ∧
      DirectoryTable.NoEmptyEntry w'.directoryTable ∧
      w'.directoryTable.find = update w.directoryTable.find key
        ((w.directoryTable.find key).map fun entry =>
          (validateMetadataForDirinfoIfExist entry dirinfo).1) := by
  simp only [releaseLocalWritelock, bind_eq_some_iff] at h
  obtain ⟨⟨tracker, edges⟩, hunblock, ⟨table, b, b'⟩, hvalidate, cached, -, h⟩ := h
  simp only [pure_eq_some_iff, Prod.mk.injEq] at h
  obtain ⟨rfl, rfl⟩ := h
  have hspec := unblockAll_spec hinv.all_writing key
  cases hb : BlockTracker.blocked w.blockTracker key with
  | none =>
    simp only [hb] at hspec
    rw [hspec] at hunblock
    cases hunblock
  | some l =>
    simp only [hb] at hspec
    obtain ⟨tracker', hstep, hall, hblocked⟩ := hspec
    rw [hstep] at hunblock
    obtain ⟨rfl, rfl⟩ := Prod.mk.inj (some.inj hunblock)
    exact ⟨hb, hall, hblocked, validate_noEmptyEntry hinv.no_empty hvalidate,
      validate_spec hvalidate⟩

end StepLemmas

/-! ## The invariant along runs -/

variable {key : Key}

theorem invariant_invalidateAll (hinv : Invariant w) {entry : DirectoryEntry}
    (hall : BlockTracker.AllWriting w'.blockTracker)
    (hblocked : w'.blocked = update w.blocked key (some []))
    (hempty : DirectoryTable.NoEmptyEntry w'.directoryTable)
    (hfind : w'.directoryTable.find = update w.directoryTable.find key
      (some (invalidateMetadataForAllDirinfoIfExist entry).1)) : Invariant w' := by
  refine hinv.of_key hall (fun k hk => by rw [hblocked, update_of_ne hk]) hfind hempty ?_
  rintro l _ d m - ⟨⟩ hd
  rw [lookup_invalidateAll] at hd
  obtain ⟨m', -, rfl⟩ := map_eq_some_iff.1 hd
  rfl

variable {source : Nat} {dirinfo : DirectoryInfo}

theorem invariant_updateDirectoryTable (hinv : Invariant w) {isAdmit : Bool} {reply : UpdateReply}
    (h : updateDirectoryTable w key source isAdmit dirinfo = some (w', reply)) :
    Invariant w' := by
  obtain ⟨htracker, hempty, hfind⟩ := updateDirectoryTable_spec hinv h
  have hblocked : w'.blocked = w.blocked := by
    funext k
    rw [blocked, htracker, blocked]
  refine hinv.of_key (by rw [htracker]; exact hinv.all_writing)
    (fun k _ => by rw [hblocked]) hfind hempty ?_
  intro l entry d m hl hentry hd
  rw [hblocked] at hl
  have hwritten : w.isBeingWritten key = true :=
    (isBeingWritten_iff hinv.all_writing key).2 ⟨l, hl⟩
  have hold : ∀ e, w.directoryTable.find key = some e → e.lookup d = some m →
      m.isValid = false := fun e he hm =>
    hinv.written_invalid key d m hwritten (by rw [dirinfo?, he]; exact hm)
  cases isAdmit with
  | true =>
    simp only [if_true, some.injEq] at hentry
    subst hentry
    rw [UnorderedMap.lookup_insert_eq] at hd
    split at hd
    · cases hd
      simp [hwritten]
    · cases he : w.directoryTable.find key with
      | none => simp [he] at hd
      | some e => exact hold e he (by simpa [he] using hd)
  | false =>
    simp only [Bool.false_eq_true, if_false, Option.bind_eq_some_iff,
      evictEntry] at hentry
    obtain ⟨old, he, hentry⟩ := hentry
    split at hentry
    · cases hentry
    · cases hentry
      rw [lookup_removeDirinfo] at hd
      split at hd
      · cases hd
      · exact hold old he hd

variable {reply : AcquireReply}

/-- What an acquisition did: no lock was needed; the key is locked, and its infos are invalid; or it
was locked already, by a write with this blocklist. -/
def Acquired (w w' : CooperationWrapper) (key : Key) (lockResult : LockResult)
    (Waits : List NetworkAddr → Prop) : Prop :=
  (lockResult = .kNoneed ∧ w' = w) ∨
    (lockResult = .kSuccess ∧ w.blocked key = none ∧ BlockTracker.AllWriting w'.blockTracker ∧
      w'.blocked = update w.blocked key (some []) ∧
      DirectoryTable.NoEmptyEntry w'.directoryTable ∧
      ∃ entry, w.directoryTable.find key = some entry ∧
        w'.directoryTable.find = update w.directoryTable.find key
          (some (invalidateMetadataForAllDirinfoIfExist entry).1)) ∨
    (lockResult = .kFailure ∧ w'.directoryTable = w.directoryTable ∧
      BlockTracker.AllWriting w'.blockTracker ∧ ∃ l, w.blocked key = some l ∧ Waits l)

theorem acquired_of_cas (hinv : Invariant w) {cas : BlockTracker → Option (BlockTracker × Bool)}
    {Waits : List NetworkAddr → BlockTracker → Prop}
    (hcas : ∀ {tracker isSuccessful}, cas w.blockTracker = some (tracker, isSuccessful) →
      w.blockTracker.Attempted key Waits tracker isSuccessful)
    (h : acquireLocalWritelock w key source cas = some (w', reply)) :
    Acquired w w' key reply.lockResult fun l => Waits l w'.blockTracker := by
  rcases acquireLocalWritelock_spec hinv h with
    ⟨-, rfl, hresult⟩ | ⟨-, hdone, hresult, hentry⟩ | ⟨-, hdone, hresult, htable⟩
  · exact .inl ⟨hresult, rfl⟩
  · obtain ⟨hall, hfree, hblocked⟩ := hcas hdone
    exact .inr (.inl ⟨hresult, hfree, hall, hblocked, hentry⟩)
  · obtain ⟨hall, hwaits⟩ := hcas hdone
    exact .inr (.inr ⟨hresult, htable, hall, hwaits⟩)

/-- Acquisition through the cache server of the beacon edge, which blocks no edge. -/
theorem acquireByCacheServer_spec (hinv : Invariant w)
    (h : acquireLocalWritelockByCacheServer w key source = some (w', reply)) :
    Acquired w w' key reply.lockResult fun _ => w'.blocked = w.blocked :=
  acquired_of_cas hinv (casWriteflagForKey_cases hinv.all_writing) h

variable {addr : NetworkAddr}

/-- Acquisition through the beacon server, with what it does to the blocklist of the key. -/
theorem acquireByBeaconServer_spec (hinv : Invariant w)
    (h : acquireLocalWritelockByBeaconServer w key source addr = some (w', reply)) :
    Acquired w w' key reply.lockResult fun l =>
      addr ∉ l ∧ w'.blocked = update w.blocked key (some (addr :: l)) :=
  acquired_of_cas hinv (casWriteflagOrBlockEdge_cases hinv.all_writing) h

theorem invariant_release (hinv : Invariant w) {reply : ReleaseReply}
    (h : releaseLocalWritelock w key source dirinfo = some (w', reply)) : Invariant w' := by
  obtain ⟨-, hall, hblocked, hempty, hfind⟩ := releaseLocalWritelock_spec hinv h
  refine hinv.of_key hall (fun k hk => by rw [hblocked, update_of_ne hk]) hfind hempty ?_
  intro l entry d m hl
  rw [hblocked, update_self] at hl
  cases hl

theorem invariant_lookupByBeaconServer (hinv : Invariant w) {draw : Nat} {reply : LookupReply}
    (h : lookupDirectoryTableByBeaconServer w key source addr draw = some (w', reply)) :
    Invariant w' := by
  rcases lookupByBeaconServer_spec hinv h with
    ⟨-, rfl, -⟩ | ⟨l, hl, -, -, -, htable, hall, hblocked⟩
  · exact hinv
  · exact hinv.of_blockTracker hall htable (blocked_update_exists hl hblocked)

theorem invariant_acquireByCacheServer (hinv : Invariant w)
    (h : acquireLocalWritelockByCacheServer w key source = some (w', reply)) : Invariant w' := by
  rcases acquireByCacheServer_spec hinv h with
    ⟨-, rfl⟩ | ⟨-, -, hall, hblocked, hempty, entry, -, hfind⟩ |
      ⟨-, htable, hall, -, -, hblocked⟩
  · exact hinv
  · exact invariant_invalidateAll hinv hall hblocked hempty hfind
  · exact hinv.of_blockTracker hall htable fun k l' hl' => ⟨l', by rw [← hblocked]; exact hl'⟩

theorem invariant_acquireByBeaconServer (hinv : Invariant w)
    (h : acquireLocalWritelockByBeaconServer w key source addr = some (w', reply)) :
    Invariant w' := by
  rcases acquireByBeaconServer_spec hinv h with
    ⟨-, rfl⟩ | ⟨-, -, hall, hblocked, hempty, entry, -, hfind⟩ |
      ⟨-, htable, hall, l, hl, -, hblocked⟩
  · exact hinv
  · exact invariant_invalidateAll hinv hall hblocked hempty hfind
  · exact hinv.of_blockTracker hall htable (blocked_update_exists hl hblocked)

/-- One operation keeps the invariant. -/
theorem invariant_step (hinv : Invariant w) {op : Operation} {reply : Reply}
    (h : step w op = some (w', reply)) : Invariant w' := by
  cases op with
  | lookupByCacheServer key source draw =>
    obtain ⟨rfl, -⟩ := step_cases h
    exact hinv
  | lookupByBeaconServer key source addr draw =>
    obtain ⟨r, hop, -⟩ := step_cases h
    exact invariant_lookupByBeaconServer hinv hop
  | updateDirectory key source isAdmit dirinfo =>
    obtain ⟨r, hop, -⟩ := step_cases h
    exact invariant_updateDirectoryTable hinv hop
  | acquireByCacheServer key source =>
    obtain ⟨r, hop, -⟩ := step_cases h
    exact invariant_acquireByCacheServer hinv hop
  | acquireByBeaconServer key source addr =>
    obtain ⟨r, hop, -⟩ := step_cases h
    exact invariant_acquireByBeaconServer hinv hop
  | release key source dirinfo =>
    obtain ⟨r, hop, -⟩ := step_cases h
    exact invariant_release hinv hop

theorem invariant_of_runs {C : CooperationWrapper → Operation → Prop}
    {tr : List (Operation × Reply)} (h : Runs step C initial tr w) :
    Invariant w :=
  h.invariant invariant_initial fun hinv _ hstep => invariant_step hinv hstep

/-! ## Directory infos after a release -/

/-- After a release the sender's info, if it is there, is the one valid info of the key. -/
theorem dirinfo?_release (hinv : Invariant w) {reply : ReleaseReply}
    (h : releaseLocalWritelock w key source dirinfo = some (w', reply)) (k : Key)
    (d : DirectoryInfo) :
    w'.dirinfo? k d = if k = key ∧ d = dirinfo then
      (w.dirinfo? k d).map DirectoryMetadata.validateMetadata else w.dirinfo? k d := by
  obtain ⟨-, -, -, -, hfind⟩ := releaseLocalWritelock_spec hinv h
  simp only [dirinfo?, hfind]
  by_cases hk : k = key
  · subst hk
    cases w.directoryTable.find k with
    | none => simp
    | some entry => simp [lookup_validate]
  · simp [hk]

/-! ## Listed edges -/

/-- The directory entry of the key has an info of the edge, valid or not. -/
def Listed (w : CooperationWrapper) (key : Key) (edge : Nat) : Prop :=
  (w.dirinfo? key ⟨edge⟩).isSome = true

instance (w : CooperationWrapper) (key : Key) (edge : Nat) : Decidable (w.Listed key edge) :=
  inferInstanceAs (Decidable (_ = _))

/-- The directory entry of the key has an info of another edge. -/
def NeighborListed (w : CooperationWrapper) (key : Key) (edge : Nat) : Prop :=
  ∃ other, other ≠ edge ∧ w.Listed key other

section Listed

variable {w w' : CooperationWrapper} {key k : Key} {source edge : Nat}

theorem listed_of_directoryTable (h : w'.directoryTable = w.directoryTable) :
    w'.Listed k edge ↔ w.Listed k edge := by
  rw [Listed, dirinfo?, h]
  rfl

/-- A lookup lists no other edges. -/
theorem listed_lookup (hinv : Invariant w) {addr : NetworkAddr} {draw : Nat} {reply : LookupReply}
    (h : lookupDirectoryTableByBeaconServer w key source addr draw = some (w', reply)) :
    w'.Listed k edge ↔ w.Listed k edge := by
  rcases lookupByBeaconServer_spec hinv h with ⟨-, rfl, -⟩ | ⟨-, -, -, -, -, htable, -⟩
  · rfl
  · exact listed_of_directoryTable htable

variable {dirinfo : DirectoryInfo}

/-- An admission lists the info and forgets nobody. -/
theorem listed_admission (hinv : Invariant w) {reply : UpdateReply}
    (h : updateDirectoryTable w key source true dirinfo = some (w', reply)) :
    w'.Listed k edge ↔ (k = key ∧ (⟨edge⟩ : DirectoryInfo) = dirinfo) ∨ w.Listed k edge := by
  obtain ⟨-, -, hfind⟩ := updateDirectoryTable_spec hinv h
  rw [Listed, dirinfo?, hfind, update_apply]
  split
  · next hk =>
    subst hk
    simp only [if_true, bind_some, UnorderedMap.lookup_insert_eq, true_and]
    split
    · next hd => simp [hd]
    · next hd =>
      rw [Listed, dirinfo?]
      cases hentry : w.directoryTable.find k with
      | none => simp [hd]
      | some entry => simp [hd]
  · next hk =>
    rw [Listed, dirinfo?]
    simp only [hk, false_and, false_or]

/-- An eviction forgets the info only. -/
theorem listed_eviction (hinv : Invariant w) {reply : UpdateReply}
    (h : updateDirectoryTable w key source false dirinfo = some (w', reply)) :
    w'.Listed k edge ↔ ¬ (k = key ∧ (⟨edge⟩ : DirectoryInfo) = dirinfo) ∧ w.Listed k edge := by
  obtain ⟨-, -, hfind⟩ := updateDirectoryTable_spec hinv h
  rw [Listed, dirinfo?, hfind, update_apply, Listed, dirinfo?]
  split
  · next hk =>
    subst hk
    cases hentry : w.directoryTable.find k with
    | none => simp
    | some entry =>
      have hlookup := lookup_removeDirinfo entry dirinfo ⟨edge⟩
      simp only [Bool.false_eq_true, if_false, bind_some, evictEntry, true_and]
      by_cases hd : (⟨edge⟩ : DirectoryInfo) = dirinfo
      · subst hd
        rw [if_pos rfl] at hlookup
        simp only [not_true, false_and, iff_false]
        split
        · simp
        · rw [bind_some, hlookup]
          simp
      · rw [if_neg hd] at hlookup
        simp only [hd, not_false_iff, true_and]
        split
        · next hzero =>
          -- an entry without infos has no info of the edge
          have hnil := List.eq_nil_of_length_eq_zero hzero
          rw [← hlookup]
          simp only [bind_none, isSome_none, Bool.false_eq_true, false_iff]
          intro hsome
          obtain ⟨m, hm⟩ := isSome_iff_exists.1 hsome
          exact (entries_ne_nil_iff _).2 ⟨_, m, hm⟩ hnil
        · rw [bind_some, hlookup]
  · next hk => simp only [hk, false_and, not_false_iff, true_and]

theorem listed_release (hinv : Invariant w) {reply : ReleaseReply}
    (h : releaseLocalWritelock w key source dirinfo = some (w', reply)) :
    w'.Listed k edge ↔ w.Listed k edge := by
  rw [Listed, dirinfo?_release hinv h]
  split
  · rw [isSome_map]
    rfl
  · rfl

variable {cas : BlockTracker → Option (BlockTracker × Bool)} {reply : AcquireReply}

section Acquire

variable (hinv : Invariant w) (h : acquireLocalWritelock w key source cas = some (w', reply))
include hinv h

/-- An acquisition lists no other edges. -/
theorem listed_acquire : w'.Listed k edge ↔ w.Listed k edge := by
  rcases acquireLocalWritelock_spec hinv h with
    ⟨-, rfl, -⟩ | ⟨-, -, -, -, entry, hentry, hfind⟩ | ⟨-, -, -, htable⟩
  · rfl
  · rw [Listed, dirinfo?, hfind, update_apply]
    split
    · next hk =>
      subst hk
      rw [bind_some, lookup_invalidateAll, isSome_map, Listed,
        dirinfo?, hentry, bind_some]
    · rfl
  · exact listed_of_directoryTable htable

/-- An acquisition fails only for a key that is cached. -/
theorem isGlobalCached_of_kFailure (hresult : reply.lockResult = .kFailure) :
    isGlobalCached w.directoryTable key = true := by
  rcases acquireLocalWritelock_spec hinv h with ⟨-, -, hnoneed⟩ | ⟨hglobal, -⟩ | ⟨hglobal, -⟩
  · rw [hresult] at hnoneed
    cases hnoneed
  · exact hglobal
  · exact hglobal

/-- A write needs no lock only if no edge is listed. -/
theorem not_listed_of_kNoneed (hresult : reply.lockResult = .kNoneed) : ¬ w.Listed key edge := by
  rcases acquireLocalWritelock_spec hinv h with
    ⟨hglobal, -, -⟩ | ⟨-, -, hsuccess, -⟩ | ⟨-, -, hfailure, -⟩
  · have hnone : w.directoryTable.find key = none := not_isSome_iff_eq_none.1 (by
      rw [isGlobalCached, ConcurrentHashtable.isExist] at hglobal
      rw [hglobal]
      exact Bool.false_ne_true)
    rw [Listed, dirinfo?, hnone]
    exact Bool.false_ne_true
  · rw [hresult] at hsuccess
    cases hsuccess
  · rw [hresult] at hfailure
    cases hfailure

end Acquire

/-- A lock that is granted comes with every listed edge. -/
theorem mem_allDirinfo_of_listed (h : acquireLocalWritelock w key source cas = some (w', reply))
    (hresult : reply.lockResult = .kSuccess) (hlisted : w.Listed key edge) :
    (⟨edge⟩ : DirectoryInfo) ∈ reply.allDirinfo := by
  simp only [acquireLocalWritelock, bind_eq_some_iff] at h
  obtain ⟨⟨w'', result, infos⟩, hcase, cached, -, h⟩ := h
  simp only [pure_eq_some_iff, Prod.mk.injEq] at h
  obtain ⟨rfl, rfl⟩ := h
  unfold lockIfGlobalCached at hcase
  split at hcase
  · simp only [bind_eq_bind, Option.bind_eq_some_iff] at hcase
    obtain ⟨⟨tracker, isSuccessful⟩, -, hcase⟩ := hcase
    cases isSuccessful with
    | true =>
      simp only [if_true, Option.bind_eq_some_iff] at hcase
      obtain ⟨⟨table, all⟩, hinvalidate, hcase⟩ := hcase
      simp only [pure_eq_some_iff, Prod.mk.injEq] at hcase
      obtain ⟨-, -, rfl⟩ := hcase
      obtain ⟨entry, hentry, hall⟩ := invalidateAll_allDirinfo hinvalidate
      rw [Listed, dirinfo?, hentry, bind_some, isSome_iff_exists] at hlisted
      show _ ∈ all.dirinfoSet
      rw [hall]
      exact (UnorderedMap.mem_keys_iff entry _).2 hlisted
    | false =>
      simp only [Bool.false_eq_true, if_false, pure_eq_some_iff, Prod.mk.injEq] at hcase
      obtain ⟨-, rfl, -⟩ := hcase
      cases hresult
  · simp only [some.injEq, Prod.mk.injEq] at hcase
    obtain ⟨-, rfl, -⟩ := hcase
    cases hresult

/-! What a directory update tells the listed edges -/

theorem listed_iff_mem {entry : DirectoryEntry} (hentry : w.directoryTable.find key = some entry) :
    w.Listed key edge ↔ (⟨edge⟩ : DirectoryInfo) ∈ entry.keys := by
  rw [Listed, dirinfo?, hentry, bind_some, UnorderedMap.mem_keys_iff,
    isSome_iff_exists]

theorem neighborListed_iff {entry : DirectoryEntry}
    (hentry : w.directoryTable.find key = some entry) :
    w.NeighborListed key edge ↔ DirectoryEntry.HasOther entry ⟨edge⟩ := by
  constructor
  · rintro ⟨other, hne, hlisted⟩
    refine ⟨⟨other⟩, (listed_iff_mem hentry).1 hlisted, fun heq => hne ?_⟩
    exact DirectoryInfo.mk.inj heq
  · rintro ⟨⟨other⟩, hmem, hne⟩
    exact ⟨other, fun heq => hne (heq ▸ rfl), (listed_iff_mem hentry).2 hmem⟩

/-- The entry of a listed edge. -/
theorem exists_entry_of_listed (h : w.Listed key edge) :
    ∃ entry, w.directoryTable.find key = some entry := by
  cases hentry : w.directoryTable.find key with
  | none =>
    rw [Listed, dirinfo?, hentry] at h
    cases h
  | some entry => exact ⟨entry, rfl⟩

variable {isAdmit : Bool}

/-- The parts of a directory update. -/
theorem updateDirectoryTable_cases {reply : UpdateReply}
    (h : updateDirectoryTable w key source isAdmit dirinfo = some (w', reply)) :
    ∃ metadata, update w.directoryTable key isAdmit dirinfo metadata =
        some (w'.directoryTable, reply.isGlobalCached, reply.requirement) ∧
      isNeighborCached w'.directoryTable key source =
        some reply.isNeighborCached := by
  simp only [updateDirectoryTable, bind_eq_bind, require_bind_eq_some_iff] at h
  obtain ⟨-, h⟩ := h
  simp only [Option.bind_eq_some_iff] at h
  obtain ⟨⟨table, isGlobal, requirement⟩, hupdate, neighbor, hneighbor, -, -, -, -, h⟩ := h
  simp only [pure_eq_some_iff, Prod.mk.injEq] at h
  obtain ⟨rfl, rfl⟩ := h
  exact ⟨_, hupdate, hneighbor⟩

/-- A directory update answers whether another edge is listed after it. -/
theorem isNeighborCached_iff (hinv : Invariant w) {reply : UpdateReply}
    (h : updateDirectoryTable w key source isAdmit dirinfo = some (w', reply)) :
    reply.isNeighborCached = true ↔ w'.NeighborListed key source := by
  obtain ⟨metadata, -, hneighbor⟩ := updateDirectoryTable_cases h
  rw [isNeighborCached_eq (updateDirectoryTable_spec hinv h).2.1,
    some.injEq] at hneighbor
  rw [← hneighbor]
  cases hentry : w'.directoryTable.find key with
  | none =>
    simp only [elim_none, List.any_nil, Bool.false_eq_true, false_iff]
    rintro ⟨other, -, hlisted⟩
    obtain ⟨entry, hsome⟩ := exists_entry_of_listed hlisted
    rw [hentry] at hsome
    cases hsome
  | some entry =>
    rw [neighborListed_iff hentry, elim_some, List.any_eq_true]
    constructor
    · rintro ⟨other, hmem, hne⟩
      exact ⟨other, hmem, fun heq => by simp [heq] at hne⟩
    · rintro ⟨other, hmem, hne⟩
      refine ⟨other, hmem, ?_⟩
      rw [bne_iff_ne]
      rintro rfl
      exact hne rfl

/-- A directory update tells each edge that stays listed whether another edge is listed after it. -/
theorem updateDirectoryTable_tells (hinv : Invariant w) {reply : UpdateReply}
    (h : updateDirectoryTable w key source isAdmit dirinfo = some (w', reply))
    (hlisted : w.Listed key edge) (hstays : isAdmit = false → (⟨edge⟩ : DirectoryInfo) ≠ dirinfo) :
    reply.requirement.Tells edge (w.NeighborListed key edge) (w'.NeighborListed key edge) := by
  obtain ⟨entry, hentry⟩ := exists_entry_of_listed hlisted
  obtain ⟨metadata, hupdate, -⟩ := updateDirectoryTable_cases h
  have hmem := (listed_iff_mem hentry).1 hlisted
  rw [update_requirement hupdate, hentry, map_some, getD_some, neighborListed_iff hentry]
  cases isAdmit with
  | true =>
    have hentry' : w'.directoryTable.find key =
        some (addDirinfo entry dirinfo metadata).1 := by
      rw [(update_insert_spec hupdate).1, update_self, hentry,
        addDirinfo_fst]
      rfl
    rw [neighborListed_iff hentry']
    exact addDirinfo_tells hmem
  | false =>
    have hlisted' : w'.Listed key edge :=
      (listed_eviction hinv h).2 ⟨fun hand => hstays rfl hand.2, hlisted⟩
    obtain ⟨entry', hentry'⟩ := exists_entry_of_listed hlisted'
    have hremoved : entry' = (removeDirinfo entry dirinfo).1 := by
      rw [(update_remove_spec hupdate).1, update_self, hentry,
        bind_some, evictEntry] at hentry'
      split at hentry'
      · cases hentry'
      · exact (some.inj hentry').symm
    rw [neighborListed_iff hentry', hremoved]
    exact removeDirinfo_tells hmem (hstays rfl)

end Listed

/-! ## Safety of the MSI states -/

/-- In every state that any interleaving of operations reaches: while a key is being written every
directory info of its entry is invalid and no lookup answers with a valid one; a release makes
exactly the sender's info valid, if it is in the entry, and touches no other; a key has an entry in
the block tracker iff its write flag is set; and no stored directory entry is empty. -/
theorem msi_safety {tr : List (Operation × Reply)} {w : CooperationWrapper}
    (h : Runs step anyAction initial tr w) :
    (∀ key, w.isBeingWritten key = true →
      (∀ d m, w.dirinfo? key d = some m → m.isValid = false) ∧
      (∀ source draw reply, lookupDirectoryTableByCacheServer w key source draw = some reply →
        reply.isValidDirectoryExist = false) ∧
      ∀ source addr draw w' reply,
        lookupDirectoryTableByBeaconServer w key source addr draw = some (w', reply) →
          reply.isValidDirectoryExist = false) ∧
    (∀ key source d w' reply, releaseLocalWritelock w key source d = some (w', reply) →
      (∀ d', (∃ m, w'.dirinfo? key d' = some m ∧ m.isValid = true) ↔
        d' = d ∧ (w.dirinfo? key d).isSome = true) ∧
      (∀ d', d' ≠ d → w'.dirinfo? key d' = w.dirinfo? key d') ∧
      ∀ k, k ≠ key → ∀ d', w'.dirinfo? k d' = w.dirinfo? k d') ∧
    (∀ key, w.blockTracker.isExist key = true ↔ w.isBeingWritten key = true) ∧
    ∀ key entry, w.directoryTable.find key = some entry → entry.entries ≠ [] := by
  have hinv : Invariant w := invariant_of_runs h
  refine ⟨fun key hkey => ⟨fun d m => hinv.written_invalid key d m hkey, ?_, ?_⟩, ?_, ?_,
    hinv.no_empty⟩
  · intro source draw reply hlookup
    exact (lookupDirectoryTable_spec hlookup).2 hkey
  · intro source addr draw w' reply hlookup
    obtain ⟨l, hl⟩ := (BlockTracker.isBeingWritten_iff hinv.all_writing key).1 hkey
    rcases lookupByBeaconServer_spec hinv hlookup with ⟨hnone, -⟩ | ⟨-, -, -, -, hvalid, -⟩
    · rw [blocked, hl] at hnone
      cases hnone
    · exact hvalid
  · intro key source d w' reply hrelease
    have hafter := dirinfo?_release hinv hrelease
    have hwritten : w.isBeingWritten key = true :=
      (BlockTracker.isBeingWritten_iff hinv.all_writing key).2
        ⟨_, (releaseLocalWritelock_spec hinv hrelease).1⟩
    refine ⟨fun d' => ?_, fun d' hd' => ?_, fun k hk d' => ?_⟩
    · rw [hafter]
      by_cases hd : d' = d
      · subst hd
        simp [DirectoryMetadata.validateMetadata, Option.isSome_iff_exists]
      · simp only [hd, and_false, if_false, false_and, iff_false]
        rintro ⟨m, hm, hvalid⟩
        rw [hinv.written_invalid key d' m hwritten hm] at hvalid
        cases hvalid
    · rw [hafter, if_neg fun hkd => hd' hkd.2]
    · rw [hafter, if_neg fun hkd => hk hkd.1]
  · intro key
    rw [isBeingWritten, BlockTracker.isBeingWritten_iff hinv.all_writing]
    simp [ConcurrentHashtable.isExist, BlockTracker.blocked, Option.isSome_iff_exists]

/-- Two edges admit a key and one of them acquires its write lock. -/
def writtenKeyOperations (key : Key) (addr : NetworkAddr) : List Operation :=
  [.updateDirectory key 1 true ⟨1⟩, .updateDirectory key 2 true ⟨2⟩,
    .acquireByBeaconServer key 1 addr]

theorem msi_safety_writtenKey :
    ∃ tr w, Runs step anyAction initial tr w ∧ w.isBeingWritten ⟨[7]⟩ = true ∧
      (w.dirinfo? ⟨[7]⟩ ⟨1⟩).isSome = true ∧
      ∀ d m, w.dirinfo? ⟨[7]⟩ d = some m → m.isValid = false := by
  have hexec : (exec step anyAction initial (writtenKeyOperations ⟨[7]⟩ ⟨[10], 2000⟩)).any
      (fun w => w.isBeingWritten ⟨[7]⟩ && (w.dirinfo? ⟨[7]⟩ ⟨1⟩).isSome) = true := by
    decide +kernel
  obtain ⟨tr, w, hrun, -, hw⟩ := exists_runs_of_any hexec
  rw [Bool.and_eq_true] at hw
  exact ⟨tr, w, hrun, hw.1, hw.2, ((msi_safety hrun).1 ⟨[7]⟩ hw.1).1⟩

end CooperationWrapper

end Covered.Cooperation
