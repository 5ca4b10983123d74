import Covered.Cooperation.BlockedEdges

/-!
# Changes between one and several copies

An update of the directory of a key says whether the key changed from a single copy to several or
back, and names the edge that has to be told. The entry derives this from its own size before and
after; an info that is admitted twice or evicted without being there changes nothing, and the table
creates and deletes empty entries around it.

`addDirinfo_change` and `removeDirinfo_change` are about one entry, `directory_changes_classified`
is about the updates of the cooperation wrapper in any reachable state.
-/

set_option autoImplicit false

namespace Covered.Cooperation

open Common Lib Lib.Checked Lib.Execution DirectoryEntry

/-! ## Edges of an entry -/

namespace DirectoryEntry

/-- The targets of the directory infos of an entry. -/
def edges (entry : DirectoryEntry) : List Nat := entry.keys.map DirectoryInfo.targetEdgeIdx

/-- The requirement says from single to multiple iff there was one edge and there are two, and from
multiple to single iff there were two and there is one; it names the edge that is in both. -/
structure Classifies (requirement : MetadataUpdateRequirement) (before after : List Nat) :
    Prop where
  single_iff : requirement.isFromSingleToMultiple = true ↔ before.length = 1 ∧ after.length = 2
  multiple_iff : requirement.isFromMultipleToSingle = true ↔ before.length = 2 ∧ after.length = 1
  single_edge : requirement.isFromSingleToMultiple = true → before = [requirement.notifyEdgeIdx]
  multiple_edge : requirement.isFromMultipleToSingle = true → after = [requirement.notifyEdgeIdx]

/-- Nothing is said of a change that is none between one edge and two. -/
theorem classifies_nothing {before after : List Nat}
    (hsingle : ¬ (before.length = 1 ∧ after.length = 2))
    (hmultiple : ¬ (before.length = 2 ∧ after.length = 1)) : Classifies {} before after := by
  constructor
  · exact iff_of_false Bool.false_ne_true hsingle
  · exact iff_of_false Bool.false_ne_true hmultiple
  · intro h
    exact Bool.noConfusion h
  · intro h
    exact Bool.noConfusion h

section Entry

variable {entry : DirectoryEntry} {dirinfo : DirectoryInfo} {metadata : DirectoryMetadata}

theorem length_edges (entry : DirectoryEntry) : (edges entry).length = size entry := by
  rw [edges, List.length_map, length_keys]

theorem nodup_edges (entry : DirectoryEntry) : (edges entry).Nodup := by
  have hnodup : entry.keys.Nodup := entry.nodupKeys
  apply hnodup.map
  rintro ⟨a⟩ ⟨b⟩ h
  exact congrArg DirectoryInfo.mk h

theorem mem_edges_iff {edge : Nat} : edge ∈ edges entry ↔
    (⟨edge⟩ : DirectoryInfo) ∈ entry.keys := by
  rw [edges, List.mem_map]
  constructor
  · rintro ⟨⟨d⟩, hd, rfl⟩
    exact hd
  · intro h
    exact ⟨_, h, rfl⟩

/-- The only edge of an entry is the first one. -/
theorem edges_of_size_eq_one (h : size entry = 1) : edges entry = [beginTargetEdgeIdx entry] := by
  obtain ⟨pair, hpair⟩ := List.length_eq_one_iff.1 h
  rw [edges, AList.keys, beginTargetEdgeIdx, hpair]
  rfl

theorem size_insert_new (h : entry.lookup dirinfo = none) :
    size (entry.insert dirinfo metadata) = size entry + 1 := by
  have hnot : dirinfo ∉ entry := AList.lookup_eq_none.1 h
  rw [size, size, AList.entries_insert_of_notMem hnot, List.length_cons]

variable {old : DirectoryMetadata}

theorem size_insert_old (h : entry.lookup dirinfo = some old) :
    size (entry.insert dirinfo metadata) = size entry := by
  have hnodup : entry.keys.Nodup := entry.nodupKeys
  have hmem : dirinfo ∈ entry.keys := (UnorderedMap.mem_keys_iff entry dirinfo).2 ⟨old, h⟩
  rw [← length_keys entry, size, UnorderedMap.length_entries _ hnodup]
  intro d
  rw [AList.lookup_isSome, AList.mem_keys, mem_keys_insert]
  constructor
  · rintro (rfl | hd)
    · exact hmem
    · exact hd
  · intro hd
    exact .inr hd

theorem size_erase (h : entry.lookup dirinfo = some old) :
    size entry = size (entry.erase dirinfo) + 1 := by
  have hmem : dirinfo ∈ entry.keys := (UnorderedMap.mem_keys_iff entry dirinfo).2 ⟨old, h⟩
  rw [← length_keys, ← length_keys, AList.keys_erase, List.length_erase_of_mem hmem]
  have hpos := List.length_pos_of_mem hmem
  omega

/-- An admission is classified by the edges of the entry around it. -/
theorem addDirinfo_change (entry : DirectoryEntry) (dirinfo : DirectoryInfo)
    (metadata : DirectoryMetadata) :
    Classifies (addDirinfo entry dirinfo metadata).2.2 (edges entry)
      (edges (addDirinfo entry dirinfo metadata).1) := by
  have hafter := length_edges (addDirinfo entry dirinfo metadata).1
  rw [addDirinfo_fst] at hafter
  have hbefore := length_edges entry
  unfold addDirinfo
  cases hlookup : entry.lookup dirinfo with
  | none =>
    rw [size_insert_new hlookup] at hafter
    by_cases hone : size entry = 1
    · simp only [if_pos hone]
      constructor
      · exact iff_of_true rfl ⟨hbefore.trans hone, by omega⟩
      · exact iff_of_false Bool.false_ne_true (by omega)
      · intro _
        exact edges_of_size_eq_one hone
      · intro h
        exact Bool.noConfusion h
    · simp only [if_neg hone]
      show Classifies {} (edges entry) (edges (entry.insert dirinfo metadata))
      apply classifies_nothing
      · omega
      · omega
  | some old =>
    -- the info is there already, and only its metadata changes
    rw [size_insert_old hlookup] at hafter
    show Classifies {} (edges entry) (edges (entry.insert dirinfo metadata))
    apply classifies_nothing
    · omega
    · omega

/-- An eviction is classified by the edges of the entry around it. -/
theorem removeDirinfo_change (entry : DirectoryEntry) (dirinfo : DirectoryInfo) :
    Classifies (removeDirinfo entry dirinfo).2.2 (edges entry)
      (edges (removeDirinfo entry dirinfo).1) := by
  have hbefore := length_edges entry
  unfold removeDirinfo
  cases hlookup : entry.lookup dirinfo with
  | none =>
    show Classifies {} (edges entry) (edges entry)
    apply classifies_nothing
    · omega
    · omega
  | some old =>
    have hafter := length_edges (entry.erase dirinfo)
    rw [size_erase hlookup] at hbefore
    by_cases hone : size (entry.erase dirinfo) = 1
    · simp only [if_pos hone]
      constructor
      · exact iff_of_false Bool.false_ne_true (by omega)
      · exact iff_of_true rfl ⟨by omega, hafter.trans hone⟩
      · intro h
        exact Bool.noConfusion h
      · intro _
        exact edges_of_size_eq_one hone
    · simp only [if_neg hone]
      show Classifies {} (edges entry) (edges (entry.erase dirinfo))
      apply classifies_nothing
      · omega
      · omega

end Entry

end DirectoryEntry

/-! ## Updates of the table -/

namespace DirectoryTable

/-- The edges that the table lists for a key. -/
def listedEdges (table : DirectoryTable) (key : Key) : List Nat :=
  (table.find key).elim [] DirectoryEntry.edges

variable {table table' : DirectoryTable} {isAdmit isGlobal : Bool} {dirinfo : DirectoryInfo}
    {metadata : DirectoryMetadata} {requirement : MetadataUpdateRequirement}

/-- An update is classified by the edges that the table lists around it. -/
theorem update_change {key : Key}
    (h : update table key isAdmit dirinfo metadata = some (table', isGlobal, requirement)) :
    DirectoryEntry.Classifies requirement (table.listedEdges key) (table'.listedEdges key) := by
  cases hentry : table.find key with
  | none =>
    rw [update_requirement h, hentry, listedEdges, hentry]
    apply classifies_nothing
    · rintro ⟨hlength, -⟩
      exact absurd hlength (by decide)
    · rintro ⟨hlength, -⟩
      exact absurd hlength (by decide)
  | some entry =>
    have hrequirement := update_requirement h
    rw [hentry, Option.map_some, Option.getD_some] at hrequirement
    have hbefore : table.listedEdges key = edges entry := by
      rw [listedEdges, hentry]
      rfl
    rw [hbefore, hrequirement]
    cases isAdmit with
    | true =>
      have hafter : table'.listedEdges key =
          edges (addDirinfo entry dirinfo metadata).1 := by
        rw [listedEdges, (update_insert_spec h).1, Function.update_self, hentry,
          addDirinfo_fst]
        rfl
      rw [hafter]
      exact addDirinfo_change entry dirinfo metadata
    | false =>
      have hafter : table'.listedEdges key =
          edges (removeDirinfo entry dirinfo).1 := by
        rw [listedEdges, (update_remove_spec h).1, Function.update_self, hentry, Option.bind_some,
          evictEntry]
        split
        · next hempty =>
          rw [← length_edges] at hempty
          exact (List.eq_nil_of_length_eq_zero hempty).symm
        · rfl
      rw [hafter]
      exact removeDirinfo_change entry dirinfo

end DirectoryTable

/-! ## Updates of the cooperation wrapper -/

namespace CooperationWrapper

/-- The edges listed for a key. -/
def listedEdges (w : CooperationWrapper) (key : Key) : List Nat :=
  DirectoryTable.listedEdges w.directoryTable key

theorem mem_listedEdges_iff {w : CooperationWrapper} {key : Key} {edge : Nat} :
    edge ∈ w.listedEdges key ↔ w.Listed key edge := by
  unfold listedEdges DirectoryTable.listedEdges
  cases hentry : w.directoryTable.find key with
  | none =>
    rw [Listed, dirinfo?, hentry]
    exact iff_of_false List.not_mem_nil Bool.false_ne_true
  | some entry => rw [listed_iff_mem hentry, Option.elim_some, mem_edges_iff]

theorem nodup_listedEdges (w : CooperationWrapper) (key : Key) : (w.listedEdges key).Nodup := by
  unfold listedEdges DirectoryTable.listedEdges
  cases w.directoryTable.find key with
  | none => exact List.nodup_nil
  | some entry => exact nodup_edges entry

/-- In any reachable state an admission or eviction of an edge passes all assertions. It lists or
forgets just this edge; its requirement says from single to multiple iff the number of listed edges
goes from one to two, and from multiple to single iff it goes from two to one, and names the edge
that was listed before or the one that remains; and it answers whether another edge stays listed. -/
theorem directory_changes_classified {tr : List (Operation × Reply)} {w : CooperationWrapper}
    (h : Runs step anyAction initial tr w) (key : Key) (isAdmit : Bool) (source : Nat) :
    ∃ w' reply, updateDirectoryTable w key source isAdmit ⟨source⟩ = some (w', reply) ∧
      (w.listedEdges key).Nodup ∧ (w'.listedEdges key).Nodup ∧
      (∀ edge, edge ∈ w'.listedEdges key ↔
        if edge = source then isAdmit = true else edge ∈ w.listedEdges key) ∧
      (reply.requirement.isFromSingleToMultiple = true ↔
        (w.listedEdges key).length = 1 ∧ (w'.listedEdges key).length = 2) ∧
      (reply.requirement.isFromSingleToMultiple = true →
        w.listedEdges key = [reply.requirement.notifyEdgeIdx]) ∧
      (reply.requirement.isFromMultipleToSingle = true ↔
        (w.listedEdges key).length = 2 ∧ (w'.listedEdges key).length = 1) ∧
      (reply.requirement.isFromMultipleToSingle = true →
        w'.listedEdges key = [reply.requirement.notifyEdgeIdx]) ∧
      ¬ (reply.requirement.isFromSingleToMultiple = true ∧
        reply.requirement.isFromMultipleToSingle = true) ∧
      (reply.isNeighborCached = true ↔ ∃ edge ∈ w'.listedEdges key, edge ≠ source) := by
  have hinv : Invariant w := invariant_of_runs h
  obtain ⟨⟨w', reply⟩, hupdate⟩ := updateDirectoryTable_isSome hinv key isAdmit ⟨source⟩
  obtain ⟨metadata, htable, -⟩ := updateDirectoryTable_cases hupdate
  have hchange := DirectoryTable.update_change htable
  refine ⟨w', reply, hupdate, nodup_listedEdges w key, nodup_listedEdges w' key, ?_,
    hchange.single_iff, hchange.single_edge, hchange.multiple_iff, hchange.multiple_edge,
    reply.requirement.not_both, ?_⟩
  · intro edge
    rw [mem_listedEdges_iff, mem_listedEdges_iff]
    cases isAdmit with
    | true =>
      rw [listed_admission hinv hupdate]
      by_cases hedge : edge = source
      · simp [hedge]
      · simp [hedge]
    | false =>
      rw [listed_eviction hinv hupdate]
      by_cases hedge : edge = source
      · simp [hedge]
      · simp [hedge]
  · rw [isNeighborCached_iff hinv hupdate]
    constructor
    · rintro ⟨edge, hne, hlisted⟩
      exact ⟨edge, mem_listedEdges_iff.2 hlisted, hne⟩
    · rintro ⟨edge, hlisted, hne⟩
      exact ⟨edge, hne, mem_listedEdges_iff.1 hlisted⟩

/-- The second admission of edge `1` counts for nothing, the one of edge `2` tells edge `1`. -/
theorem directory_changes_twoEdges :
    ∃ tr w w' reply, Runs step anyAction initial tr w ∧ tr.length = 2 ∧
      updateDirectoryTable w ⟨[7]⟩ 2 true ⟨2⟩ = some (w', reply) ∧
      reply.requirement.isFromSingleToMultiple = true ∧ reply.requirement.notifyEdgeIdx = 1 ∧
      reply.isNeighborCached = true := by
  have hexec : (exec step anyAction initial
      [.updateDirectory ⟨[7]⟩ 1 true ⟨1⟩, .updateDirectory ⟨[7]⟩ 1 true ⟨1⟩]).any
      (fun w => w.listedEdges ⟨[7]⟩ == [1]) = true := by
    decide +kernel
  obtain ⟨tr, w, hrun, hactions, hw⟩ := exists_runs_of_any hexec
  have hlisted : w.listedEdges ⟨[7]⟩ = [1] := beq_iff_eq.1 hw
  have hlength : tr.length = 2 := by
    rw [← List.length_map, hactions]
    rfl
  obtain ⟨w', reply, hupdate, -, hnodup, hmem, hsingle, hedge, -, -, -, hneighbor⟩ :=
    directory_changes_classified hrun ⟨[7]⟩ true 2
  have htwo : (w'.listedEdges ⟨[7]⟩).length = 2 := by
    have hperm : (w'.listedEdges ⟨[7]⟩).Perm [1, 2] := by
      rw [List.perm_ext_iff_of_nodup hnodup (by decide)]
      intro edge
      rw [hmem, hlisted]
      by_cases h : edge = 2
      · simp [h]
      · simp [h]
    exact hperm.length_eq
  have hrequired := hsingle.2 ⟨by rw [hlisted]; rfl, htwo⟩
  have hnotified := hedge hrequired
  rw [hlisted] at hnotified
  refine ⟨tr, w, w', reply, hrun, hlength, hupdate, hrequired, ?_, hneighbor.2 ⟨1, ?_, by decide⟩⟩
  · exact (List.cons.inj hnotified).1.symm
  · rw [hmem, hlisted]
    simp

end CooperationWrapper

end Covered.Cooperation
