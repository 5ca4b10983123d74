import Covered.Cooperation.CooperationWrapper

/-!
# Blocked edges

An edge whose lookup is answered with "being written", or whose acquisition fails, waits until the
beacon notifies it; the beacon notifies the edges that a release returns. `answeredSince` collects,
from the operations and answers of a run, the addresses told to wait for a key since the last
release of its lock. `blocked_eq_answeredSince` says that the blocklist of the key is this list, so
the next release returns exactly these addresses.

The beacon asserts that no address is blocked twice. `Meets` is the exact condition under which an
operation does not abort: a second request of an edge that is blocked already does, and so does a
release of a key that is not being written.
-/

set_option autoImplicit false

namespace Covered.Cooperation.CooperationWrapper

open Common Lib Lib.Checked Lib.Execution Option DirectoryTable BlockTracker

/-! ## When an operation aborts -/

/-- The edge with this address does not wait for the key. -/
def NotBlocked (w : CooperationWrapper) (key : Key) (addr : NetworkAddr) : Prop :=
  ∀ l, w.blocked key = some l → addr ∉ l

/-- The condition under which no assertion fails in an operation. -/
def Meets (w : CooperationWrapper) : Operation → Prop
  | .lookupByCacheServer _ _ _ => True
  | .lookupByBeaconServer key _ addr _ => NotBlocked w key addr
  | .updateDirectory _ source _ dirinfo => source = dirinfo.targetEdgeIdx
  | .acquireByCacheServer _ _ => True
  | .acquireByBeaconServer key _ addr =>
      DirectoryTable.isGlobalCached w.directoryTable key = true → NotBlocked w key addr
  | .release key _ _ => w.blocked key ≠ none

instance (w : CooperationWrapper) (key : Key) (addr : NetworkAddr) :
    Decidable (NotBlocked w key addr) :=
  match h : w.blocked key with
  | none => isTrue fun l hl => by rw [h] at hl; cases hl
  | some l => decidable_of_iff (addr ∉ l) (by simp [NotBlocked, h])

instance (w : CooperationWrapper) : (op : Operation) → Decidable (Meets w op)
  | .lookupByCacheServer _ _ _ => inferInstanceAs (Decidable True)
  | .lookupByBeaconServer key _ addr _ => inferInstanceAs (Decidable (NotBlocked w key addr))
  | .updateDirectory _ source _ dirinfo =>
      inferInstanceAs (Decidable (source = dirinfo.targetEdgeIdx))
  | .acquireByCacheServer _ _ => inferInstanceAs (Decidable True)
  | .acquireByBeaconServer key _ addr =>
      inferInstanceAs (Decidable (DirectoryTable.isGlobalCached w.directoryTable key = true →
        NotBlocked w key addr))
  | .release key _ _ => inferInstanceAs (Decidable (w.blocked key ≠ none))

section NoAbort

variable {w : CooperationWrapper} {key : Key}

theorem lookupByBeaconServer_isSome_iff (hinv : Invariant w) (source draw : Nat)
    (addr : NetworkAddr) :
    (∃ p, lookupDirectoryTableByBeaconServer w key source addr draw = some p) ↔
      NotBlocked w key addr := by
  have hspec := blockEdge_spec hinv.all_writing key addr
  have hlookup : ∀ tracker flag, ∃ reply, lookupDirectoryTable { w with blockTracker := tracker }
      key source draw flag = some reply := fun tracker flag =>
    lookupDirectoryTable_isSome (w := { w with blockTracker := tracker }) hinv.no_empty
      key source draw flag
  unfold lookupDirectoryTableByBeaconServer NotBlocked blocked
  cases hb : BlockTracker.blocked w.blockTracker key with
  | none =>
    simp only [hb] at hspec
    obtain ⟨reply, hreply⟩ := hlookup w.blockTracker false
    simp [hspec, hreply]
  | some l =>
    simp only [hb] at hspec
    split at hspec
    · next hmem => simp [hspec, hmem]
    · next hmem =>
      obtain ⟨tracker', hstep, -⟩ := hspec
      obtain ⟨reply, hreply⟩ := hlookup tracker' true
      simp [hstep, hreply, hmem]

theorem updateDirectoryTable_isSome (hinv : Invariant w) (key : Key) (isAdmit : Bool)
    (dirinfo : DirectoryInfo) :
    ∃ p, updateDirectoryTable w key dirinfo.targetEdgeIdx isAdmit dirinfo = some p := by
  have hneighbor : ∀ {table' : DirectoryTable}, DirectoryTable.NoEmptyEntry table' →
      (∃ entry d m, table'.find key = some entry ∧ entry.lookup d = some m ∧ d ≠ dirinfo) →
        isNeighborCached table' key dirinfo.targetEdgeIdx = some true := by
    rintro table' hempty ⟨entry, d, m, hentry, hd, hne⟩
    have hmem : d ∈ entry.keys := (UnorderedMap.mem_keys_iff entry d).2 ⟨m, hd⟩
    have htarget : d.targetEdgeIdx ≠ dirinfo.targetEdgeIdx := by
      intro heq
      exact hne (by cases d; cases dirinfo; simpa using heq)
    rw [isNeighborCached_eq hempty, hentry]
    simp only [elim_some, some.injEq, List.any_eq_true, bne_iff_ne]
    exact ⟨d, hmem, htarget⟩
  have hrest : ∀ {table' b r metadata},
      update w.directoryTable key isAdmit dirinfo metadata = some (table', b, r) →
      ∃ n, isNeighborCached table' key dirinfo.targetEdgeIdx = some n ∧
        (r.isFromSingleToMultiple = true → isAdmit = true ∧ n = true) ∧
        (r.isFromMultipleToSingle = true → isAdmit = false ∧ n = true) := by
    intro table' b r metadata hupdate
    have hempty := update_noEmptyEntry hinv.no_empty hupdate
    have hcached := isNeighborCached_eq hempty key dirinfo.targetEdgeIdx
    refine ⟨_, hcached, ?_⟩
    cases isAdmit with
    | true =>
      obtain ⟨hfrom, hto⟩ := requirement_insert hupdate
      refine ⟨fun h => ⟨rfl, ?_⟩, fun h => absurd (hfrom.symm.trans h) (by decide)⟩
      exact some.inj (hcached.symm.trans (hneighbor hempty (hto h)))
    | false =>
      obtain ⟨hto, hfrom⟩ := requirement_remove hupdate
      refine ⟨fun h => absurd (hto.symm.trans h) (by decide), fun h => ⟨rfl, ?_⟩⟩
      exact some.inj (hcached.symm.trans (hneighbor hempty (hfrom h)))
  have hupdate : ∀ metadata, ∃ table' b r,
      update w.directoryTable key isAdmit dirinfo metadata =
        some (table', b, r) := by
    intro metadata
    cases isAdmit with
    | true => exact update_admit_isSome w.directoryTable key dirinfo metadata
    | false => exact update_evict_isSome w.directoryTable key dirinfo metadata
  unfold updateDirectoryTable
  simp only [bind_eq_bind, require_bind_of]
  obtain ⟨table', b, r, hu⟩ := hupdate
    ⟨!if isAdmit = true then isBeingWrittenForKey w.blockTracker key else false⟩
  obtain ⟨n, hn, hsingle, hmultiple⟩ := hrest hu
  rw [hu, bind_some]
  simp only [hn, bind_some, require_bind_of hsingle, require_bind_of hmultiple]
  exact ⟨_, rfl⟩

theorem acquireLocalWritelock_isSome (hinv : Invariant w) (source : Nat)
    {cas : BlockTracker → Option (BlockTracker × Bool)}
    (hcas : isGlobalCached w.directoryTable key = true →
      ∃ p, cas w.blockTracker = some p) :
    ∃ p, acquireLocalWritelock w key source cas = some p := by
  have hcached : ∀ {table : DirectoryTable}, DirectoryTable.NoEmptyEntry table →
      ∃ b, isCachedByGivenEdge table key source = some b := fun h =>
    isCachedByGivenEdge_isSome h key source
  unfold acquireLocalWritelock lockIfGlobalCached
  by_cases hglobal : isGlobalCached w.directoryTable key = true
  · obtain ⟨⟨tracker, isSuccessful⟩, hstep⟩ := hcas hglobal
    cases isSuccessful with
    | true =>
      obtain ⟨table, all, hinvalidate⟩ := invalidateAll_isSome hinv.no_empty hglobal
      obtain ⟨b, hb⟩ :=
        hcached (invalidateAll_noEmptyEntry hinv.no_empty hinvalidate)
      simp [hglobal, hstep, hinvalidate, hb]
    | false =>
      obtain ⟨b, hb⟩ := hcached hinv.no_empty
      simp [hglobal, hstep, hb]
  · obtain ⟨b, hb⟩ := hcached hinv.no_empty
    simp [hglobal, hb]

theorem acquireByCacheServer_isSome (hinv : Invariant w) (key : Key) (source : Nat) :
    ∃ p, acquireLocalWritelockByCacheServer w key source = some p := by
  refine acquireLocalWritelock_isSome hinv source fun _ => ?_
  have hspec := casWriteflagForKey_spec hinv.all_writing key
  cases hb : BlockTracker.blocked w.blockTracker key with
  | none =>
    simp only [hb] at hspec
    obtain ⟨tracker', hstep, -⟩ := hspec
    exact ⟨_, hstep⟩
  | some l =>
    simp only [hb] at hspec
    obtain ⟨tracker', hstep, -⟩ := hspec
    exact ⟨_, hstep⟩

theorem acquireByBeaconServer_isSome_iff (hinv : Invariant w) (source : Nat)
    (addr : NetworkAddr) :
    (∃ p, acquireLocalWritelockByBeaconServer w key source addr = some p) ↔
      (isGlobalCached w.directoryTable key = true → NotBlocked w key addr) := by
  have hspec := casWriteflagOrBlockEdge_spec hinv.all_writing key addr
  constructor
  · rintro ⟨⟨w', reply⟩, h⟩ hglobal l hl hmem
    rw [blocked] at hl
    simp only [hl, if_pos hmem] at hspec
    rcases acquireLocalWritelock_spec hinv h with ⟨hnot, -⟩ | ⟨-, hcas, -⟩ | ⟨-, hcas, -⟩
    · rw [hglobal] at hnot
      cases hnot
    · rw [hspec] at hcas
      cases hcas
    · rw [hspec] at hcas
      cases hcas
  · intro h
    refine acquireLocalWritelock_isSome hinv source fun hglobal => ?_
    cases hb : BlockTracker.blocked w.blockTracker key with
    | none =>
      simp only [hb] at hspec
      obtain ⟨tracker', hstep, -⟩ := hspec
      exact ⟨_, hstep⟩
    | some l =>
      simp only [hb, if_neg (h hglobal l hb)] at hspec
      obtain ⟨tracker', hstep, -⟩ := hspec
      exact ⟨_, hstep⟩

theorem release_isSome_iff (hinv : Invariant w) (source : Nat) (dirinfo : DirectoryInfo) :
    (∃ p, releaseLocalWritelock w key source dirinfo = some p) ↔ w.blocked key ≠ none := by
  have hspec := unblockAll_spec hinv.all_writing key
  obtain ⟨table, b, b', hvalidate⟩ :=
    validate_isSome w.directoryTable key dirinfo
  obtain ⟨c, hc⟩ := isCachedByGivenEdge_isSome
    (validate_noEmptyEntry hinv.no_empty hvalidate) key source
  unfold releaseLocalWritelock blocked
  cases hb : BlockTracker.blocked w.blockTracker key with
  | none =>
    simp only [hb] at hspec
    simp [hspec]
  | some l =>
    simp only [hb] at hspec
    obtain ⟨tracker', hstep, -⟩ := hspec
    simp [hstep, hvalidate, hc]

end NoAbort

variable {w : CooperationWrapper}

/-- An operation does not abort iff it meets the condition. -/
theorem step_isSome_iff (hinv : Invariant w) (op : Operation) :
    (∃ p, step w op = some p) ↔ Meets w op := by
  cases op with
  | lookupByCacheServer key source draw =>
    obtain ⟨reply, h⟩ := lookupDirectoryTable_isSome (w := w) hinv.no_empty key source draw
      (isBeingWrittenForKey w.blockTracker key)
    simp [step, Meets, lookupDirectoryTableByCacheServer, h]
  | lookupByBeaconServer key source addr draw =>
    rw [Meets, ← lookupByBeaconServer_isSome_iff hinv source draw addr]
    simp [step]
  | updateDirectory key source isAdmit dirinfo =>
    rw [Meets]
    by_cases hsource : source = dirinfo.targetEdgeIdx
    · subst hsource
      obtain ⟨p, hp⟩ := updateDirectoryTable_isSome hinv key isAdmit dirinfo
      simp [step, hp]
    · simp [step, updateDirectoryTable, hsource, require]
  | acquireByCacheServer key source =>
    obtain ⟨p, hp⟩ := acquireByCacheServer_isSome hinv key source
    simp [step, Meets, hp]
  | acquireByBeaconServer key source addr =>
    rw [Meets, ← acquireByBeaconServer_isSome_iff hinv source addr]
    simp [step]
  | release key source dirinfo =>
    rw [Meets, ← release_isSome_iff hinv source dirinfo]
    simp [step]

/-! ## Edges told to wait -/

/-- The address that an answer of the beacon server tells to wait for the key. -/
def toldToWait (key : Key) : Operation × Reply → Option NetworkAddr
  | (.lookupByBeaconServer k _ addr _, .lookup reply) =>
      if k = key ∧ reply.isBeingWritten = true then some addr else none
  | (.acquireByBeaconServer k _ addr, .acquire reply) =>
      if k = key ∧ reply.lockResult = .kFailure then some addr else none
  | _ => none

/-- The operation releases the lock of the key. -/
def isReleaseOf (key : Key) : Operation → Bool
  | .release k _ _ => k = key
  | _ => false

/-- Addresses told to wait for the key since the last release of its lock, the latest first. -/
def answeredSince (key : Key) : List (Operation × Reply) → List NetworkAddr
  | [] => []
  | (op, reply) :: earlier =>
      if isReleaseOf key op then []
      else (toldToWait key (op, reply)).toList ++ answeredSince key earlier

theorem getD_update_cons {key : Key} {addr : NetworkAddr} {l : List NetworkAddr}
    (hl : w.blocked key = some l) (k : Key) :
    (Function.update w.blocked key (some (addr :: l)) k).getD [] =
      (if key = k then some addr else none).toList ++ (w.blocked k).getD [] := by
  by_cases hk : key = k
  · subst hk
    simp [hl]
  · rw [Function.update_of_ne (Ne.symm hk), if_neg hk]
    rfl

theorem getD_update_nil {key : Key} (hnone : w.blocked key = none) (k : Key) :
    (Function.update w.blocked key (some []) k).getD [] = (w.blocked k).getD [] := by
  by_cases hk : k = key
  · subst hk
    simp [hnone]
  · rw [Function.update_of_ne hk]

/-- One operation changes the blocklist of a key as it changes the list of waiting edges. -/
theorem blocked_step {w' : CooperationWrapper} (hinv : Invariant w) {op : Operation} {reply : Reply}
    (h : step w op = some (w', reply)) (k : Key) :
    (w'.blocked k).getD [] = if isReleaseOf k op then []
      else (toldToWait k (op, reply)).toList ++ (w.blocked k).getD [] := by
  cases op with
  | lookupByCacheServer key source draw =>
    obtain ⟨rfl, r, -, rfl⟩ := step_cases h
    simp [isReleaseOf, toldToWait]
  | lookupByBeaconServer key source addr draw =>
    obtain ⟨r, hop, rfl⟩ := step_cases h
    rcases lookupByBeaconServer_spec hinv hop with
      ⟨-, rfl, hflag⟩ | ⟨l, hl, -, hflag, -, -, -, hblocked⟩
    · simp [isReleaseOf, toldToWait, hflag]
    · rw [hblocked, getD_update_cons hl]
      simp [isReleaseOf, toldToWait, hflag]
  | updateDirectory key source isAdmit dirinfo =>
    obtain ⟨r, hop, rfl⟩ := step_cases h
    obtain ⟨htracker, -⟩ := updateDirectoryTable_spec hinv hop
    simp [isReleaseOf, toldToWait, blocked, htracker]
  | acquireByCacheServer key source =>
    obtain ⟨r, hop, rfl⟩ := step_cases h
    rcases acquireByCacheServer_spec hinv hop with
      ⟨-, rfl⟩ | ⟨-, hnone, -, hblocked, -⟩ | ⟨-, -, -, -, -, hblocked⟩
    · simp [isReleaseOf, toldToWait]
    · rw [hblocked, getD_update_nil hnone]
      simp [isReleaseOf, toldToWait]
    · rw [hblocked]
      simp [isReleaseOf, toldToWait]
  | acquireByBeaconServer key source addr =>
    obtain ⟨r, hop, rfl⟩ := step_cases h
    rcases acquireByBeaconServer_spec hinv hop with
      ⟨hresult, rfl⟩ | ⟨hresult, hnone, -, hblocked, -⟩ | ⟨hresult, -, -, l, hl, -, hblocked⟩
    · simp [isReleaseOf, toldToWait, hresult]
    · rw [hblocked, getD_update_nil hnone]
      simp [isReleaseOf, toldToWait, hresult]
    · rw [hblocked, getD_update_cons hl]
      simp [isReleaseOf, toldToWait, hresult]
  | release key source dirinfo =>
    obtain ⟨r, hop, rfl⟩ := step_cases h
    obtain ⟨-, -, hblocked, -⟩ := releaseLocalWritelock_spec hinv hop
    rw [hblocked]
    by_cases hk : key = k
    · subst hk
      simp [isReleaseOf]
    · rw [Function.update_of_ne (Ne.symm hk)]
      simp [isReleaseOf, toldToWait, hk]

/-- Along every run the blocklist of a key is the list of addresses told to wait for it. -/
theorem blocked_eq_answeredSince {C : CooperationWrapper → Operation → Prop}
    {tr : List (Operation × Reply)} (h : Runs step C initial tr w) (key : Key) :
    (w.blocked key).getD [] = answeredSince key tr := by
  have hpair : Invariant w ∧ (w.blocked key).getD [] = answeredSince key tr := by
    refine h.trace_invariant (P := fun tr w => Invariant w ∧
      (w.blocked key).getD [] = answeredSince key tr) ⟨invariant_initial, rfl⟩ ?_
    rintro tr t op t' reply ⟨hinv, heq⟩ - hstep
    exact ⟨invariant_step hinv hstep, by rw [blocked_step hinv hstep, answeredSince, heq]⟩
  exact hpair.2

/-- In every run whose operations meet the condition: an operation aborts iff it does not meet the
condition, and a release returns each address told to wait for the key since its last release
exactly once, and no other address. -/
theorem release_returns_answered {tr : List (Operation × Reply)} {w : CooperationWrapper}
    (h : Runs step Meets initial tr w) :
    (∀ op, step w op ≠ none ↔ Meets w op) ∧
    ∀ key source d w' reply, releaseLocalWritelock w key source d = some (w', reply) →
      ∀ addr, reply.blockedEdges.count addr = if addr ∈ answeredSince key tr then 1 else 0 := by
  have hinv : Invariant w := invariant_of_runs h
  constructor
  · intro op
    rw [← step_isSome_iff hinv, Option.ne_none_iff_exists']
  · intro key source d w' reply hrelease addr
    have hblocked := (releaseLocalWritelock_spec hinv hrelease).1
    have heq := blocked_eq_answeredSince h key
    rw [hblocked, Option.getD_some] at heq
    rw [← heq]
    split
    · next hmem => exact List.count_eq_one_of_mem (BlockTracker.blocked_nodup hblocked) hmem
    · next hmem => exact List.count_eq_zero_of_not_mem hmem

/-- A third edge looks a key up that is being written. -/
def waitingLookup : Operation := .lookupByBeaconServer ⟨[7]⟩ 3 ⟨[11], 3000⟩ 0

theorem release_returns_answered_waitingEdge :
    ∃ tr w w' reply, Runs step Meets initial tr w ∧
      releaseLocalWritelock w ⟨[7]⟩ 1 ⟨1⟩ = some (w', reply) ∧
      reply.blockedEdges.count ⟨[11], 3000⟩ = 1 := by
  have hexec : (exec step Meets initial
      (writtenKeyOperations ⟨[7]⟩ ⟨[10], 2000⟩ ++ [waitingLookup])).any (fun w =>
        (releaseLocalWritelock w ⟨[7]⟩ 1 ⟨1⟩).any fun p =>
          decide (⟨[11], 3000⟩ ∈ p.2.blockedEdges)) = true := by
    decide +kernel
  obtain ⟨tr, w, hrun, -, hw⟩ := exists_runs_of_any hexec
  rw [Option.any_eq_true] at hw
  obtain ⟨⟨w', reply⟩, hrelease, hmem⟩ := hw
  have hcount := (release_returns_answered hrun).2 _ _ _ _ _ hrelease ⟨[11], 3000⟩
  refine ⟨tr, w, w', reply, hrun, hrelease, ?_⟩
  rw [hcount, if_pos]
  by_contra hnot
  rw [if_neg hnot, List.count_eq_zero] at hcount
  exact hcount (of_decide_eq_true hmem)

/-- The operation is a request of another edge that may block it. -/
def isBlockingRequest : Operation → Bool
  | .lookupByBeaconServer _ _ _ _ => true
  | .acquireByBeaconServer _ _ _ => true
  | _ => false

/-- A request that is delivered twice does fail an assertion: the second lookup of an edge that
waits for the key. -/
theorem redelivered_request_aborts :
    ¬ ∀ tr w, Runs step anyAction initial tr w → ∀ op ∈ tr.map Prod.fst,
      isBlockingRequest op = true → step w op ≠ none := by
  intro h
  have hexec : (exec step anyAction initial
      (writtenKeyOperations ⟨[7]⟩ ⟨[10], 2000⟩ ++ [waitingLookup])).any
        (fun w => (step w waitingLookup).isNone) = true := by
    decide +kernel
  obtain ⟨tr, w, hrun, hops, hw⟩ := exists_runs_of_any hexec
  refine h tr w hrun waitingLookup ?_ rfl (Option.isNone_iff_eq_none.1 hw)
  rw [hops]
  simp

end Covered.Cooperation.CooperationWrapper
