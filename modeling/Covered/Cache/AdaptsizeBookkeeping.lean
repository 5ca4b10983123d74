import Covered.Cache.AdaptsizeRepresentation
import Covered.Lib.IndexedList

/-!
# What AdaptSize counts

The size counts a fixed overhead, the objects, the lookup table, the entries of both tables of
counters and the three vectors. The statistics count the bytes of the tracked objects, those that
have an entry in one of the tables.

`Kept` says so of the statistics, `rest` being the bytes of everything else. Each function of a
reconfiguration keeps it: `persist_spec` is about the merge of the tables, `visitInfos_spec` about
the visit that deletes entries, and `modelHitRate_eq` about the vector of probabilities, the only
thing that the choice of the scale changes.

Two slips are behind `CountMeets`. The size of a tracked object is overwritten when it changes, but
not the sum; and a deleted entry is taken off the size with the length of the key that comes after
it. `booksKept_of_runs` is the theorem, `statSize_stale` is a run in which the size of an object
changes.
-/

set_option autoImplicit false

namespace Covered.Cache.Adaptsize

open Common Lib Lib.Checked Lib.Execution UnorderedMap List ObjInfo
open Doubles (ofRat ofNat lt)

variable {F : Type} [Doubles F] {platform : Platform F} {cacheSize : Nat} {key : Key}
  {value : Value}

/-! ## What is counted -/

/-- Bytes of the entries of a table of counters. -/
def tableBytes (table : UnorderedMap Key (ObjInfo F)) : Nat :=
  table.sumBy fun key _ => infoBytes key

/-- Bytes of the vectors. -/
def vectorBytes (s : Statistics F) : Nat :=
  8 * (s.alignedReqCount.length + s.alignedObjSize.length + s.alignedAdmProb.length)

/-- The size that is recorded for a tracked object; the latest one is in `intervalMetadata`. -/
def recordedSize (s : Statistics F) (key : Key) : Option Nat :=
  ((s.intervalMetadata.lookup key).or (s.longTermMetadata.lookup key)).map ObjInfo.objSize

/-- The keys of the tracked objects. -/
def trackedKeys (s : Statistics F) : Finset Key :=
  (s.intervalMetadata.keys ++ s.longTermMetadata.keys).toFinset

/-- Bytes of the tracked objects. -/
def trackedBytes (s : Statistics F) : Nat :=
  ∑ key ∈ trackedKeys s, (recordedSize s key).getD 0

/-- The size and the sum of the tracked objects are right, with `rest` bytes outside the statistics.
-/
structure Kept (rest : Nat) (s : Statistics F) : Prop where
  bounded : Bounded s
  size : s.currentSize = rest + tableBytes s.intervalMetadata + tableBytes s.longTermMetadata +
    vectorBytes s
  agree : ∀ key info, s.longTermMetadata.lookup key = some info →
    recordedSize s key = some info.objSize
  statSize : s.statSize = trackedBytes s
  statLimit : s.statSize < uint64Limit

section Tracked

variable {s t : Statistics F} {n : Nat}

omit [Doubles F] in
theorem mem_trackedKeys : key ∈ trackedKeys s ↔ (recordedSize s key).isSome = true := by
  rw [trackedKeys, mem_toFinset, mem_append, mem_keys_iff,
    mem_keys_iff, recordedSize, Option.isSome_map, Option.isSome_or,
    Bool.or_eq_true, Option.isSome_iff_exists, Option.isSome_iff_exists]

omit [Doubles F] in
/-- The bytes depend on the recorded sizes only. -/
theorem trackedBytes_congr (h : ∀ key, recordedSize t key = recordedSize s key) :
    trackedBytes t = trackedBytes s := by
  have hkeys : trackedKeys t = trackedKeys s := by
    ext key
    rw [mem_trackedKeys, mem_trackedKeys, h]
  rw [trackedBytes, trackedBytes, hkeys]
  exact Finset.sum_congr rfl fun key _ => by rw [h]

omit [Doubles F] in
/-- An object is tracked no more. -/
theorem trackedBytes_forget (hn : recordedSize s key = some n)
    (h : ∀ k, recordedSize t k = if k = key then none else recordedSize s k) :
    trackedBytes t + n = trackedBytes s := by
  have hkeys : trackedKeys t = (trackedKeys s).erase key := by
    ext k
    rw [mem_trackedKeys, h, Finset.mem_erase, mem_trackedKeys]
    by_cases hk : k = key
    · simp [hk]
    · simp [hk]
  have hmem : key ∈ trackedKeys s := mem_trackedKeys.2 (by rw [hn, Option.isSome_some])
  have hothers : trackedBytes t = ∑ k ∈ (trackedKeys s).erase key, (recordedSize s k).getD 0 := by
    rw [trackedBytes, hkeys]
    refine Finset.sum_congr rfl fun k hk => ?_
    rw [h, if_neg (Finset.ne_of_mem_erase hk)]
  have hsum := Finset.sum_erase_add (trackedKeys s) (fun k => (recordedSize s k).getD 0) hmem
  rw [hn, Option.getD_some] at hsum
  rw [hothers]
  exact hsum

omit [Doubles F] in
/-- Fewer objects have fewer bytes. -/
theorem trackedBytes_le
    (h : ∀ key n, recordedSize t key = some n → recordedSize s key = some n) :
    trackedBytes t ≤ trackedBytes s := by
  have hsub : trackedKeys t ⊆ trackedKeys s := by
    intro key hkey
    obtain ⟨n, hn⟩ := Option.isSome_iff_exists.1 (mem_trackedKeys.1 hkey)
    exact mem_trackedKeys.2 (by rw [h key n hn, Option.isSome_some])
  have hsame : trackedBytes t = ∑ key ∈ trackedKeys t, (recordedSize s key).getD 0 := by
    refine Finset.sum_congr rfl fun key hkey => ?_
    obtain ⟨n, hn⟩ := Option.isSome_iff_exists.1 (mem_trackedKeys.1 hkey)
    rw [hn, h key n hn]
  rw [hsame]
  exact Finset.sum_le_sum_of_subset hsub

end Tracked

/-! ## The choice of the scale -/

section Choice

variable {s t : Statistics F}

/-- A model of the hit rate writes the vector of probabilities and counts it. -/
theorem modelHitRate_eq {log2c hitRate : F} (hb : Bounded s) {m : Nat}
    (hsize : s.currentSize = m + 8 * s.alignedAdmProb.length)
    (hmodel : Statistics.modelHitRate cacheSize s log2c = some (t, hitRate)) :
    ∃ n probs, t = { s with currentSize := n, alignedAdmProb := probs } ∧
      n = m + 8 * probs.length := by
  simp only [Statistics.modelHitRate] at hmodel
  split at hmodel
  · cases hmodel
    exact ⟨s.currentSize, s.alignedAdmProb, rfl, hsize⟩
  · simp only [bind_eq_some_iff, pure_eq_some_iff, Prod.mk.injEq] at hmodel
    obtain ⟨u, hfold, rfl, -⟩ := hmodel
    refine foldlM_invariant (P := fun u : Statistics F => ∃ n probs,
      u = { s with currentSize := n, alignedAdmProb := probs } ∧ n = m + 8 * probs.length)
      ?_ ?_ hfold
    · rintro u objSize v - ⟨n, probs, rfl, hn⟩ hadd
      obtain ⟨n', hn', rfl⟩ := Option.map_eq_some_iff.1 hadd
      have hsum : n' = n + 8 := uint64Add_eq_some hn'
      refine ⟨n', probs ++ [_], rfl, ?_⟩
      rw [length_append, length_singleton]
      omega
    · refine ⟨_, _, rfl, ?_⟩
      have hsub : uint64Minus s.currentSize (s.alignedAdmProb.length * 8) = m := by
        rw [uint64Minus_eq hb (by omega)]
        omega
      exact hsub

/-- The choice of the scale leaves the counters and keeps the size right. -/
theorem Kept.chooseScale {rest : Nat} (h : Kept rest s)
    (hchoose : Statistics.chooseScale cacheSize s = some t) :
    Kept rest t ∧ ∀ key, recordedSize t key = recordedSize s key := by
  refine chooseScale_invariant (P := fun u => Kept rest u ∧
    ∀ key, recordedSize u key = recordedSize s key) ?_ ?_ ⟨h, fun _ => rfl⟩ hchoose
  · rintro u v log2c hitRate ⟨hu, hsame⟩ hmodel
    obtain ⟨n, probs, rfl, hn⟩ := modelHitRate_eq (m := rest + tableBytes u.intervalMetadata +
      tableBytes u.longTermMetadata + 8 * (u.alignedReqCount.length + u.alignedObjSize.length))
      hu.bounded (by rw [hu.size, vectorBytes]; omega) hmodel
    refine ⟨⟨hu.bounded.modelHitRate hmodel, ?_, hu.agree, hu.statSize, hu.statLimit⟩, hsame⟩
    dsimp only [vectorBytes]
    omega
  · rintro u c ⟨hu, hsame⟩
    exact ⟨⟨hu.bounded, hu.size, hu.agree, hu.statSize, hu.statLimit⟩, hsame⟩

end Choice

/-! ## The merge of the tables -/

/-- The counters of an entry join those of a table. -/
def mergeInfo (table : UnorderedMap Key (ObjInfo F)) (entry : Key × ObjInfo F) :
    UnorderedMap Key (ObjInfo F) :=
  match table.lookup entry.1 with
  | some info => table.insert entry.1 { entry.2 with
      requestCount := info.requestCount + (ofNat 1 - ofRat ewmaDecay) * entry.2.requestCount }
  | none => table.insert entry.1 entry.2

/-- The long-term counters at the end of a period, before any is deleted. -/
def mergedMetadata (platform : Platform F) (s : Statistics F) : UnorderedMap Key (ObjInfo F) :=
  (Statistics.entriesOf platform s.intervalMetadata).foldl mergeInfo
    (Statistics.smooth platform s.longTermMetadata)

/-- The entries in the order in which a reconfiguration visits them. -/
def visited (platform : Platform F) (s : Statistics F) : List (Key × ObjInfo F) :=
  Statistics.entriesOf platform (mergedMetadata platform s)

section Merge

variable {s t : Statistics F} {table table' : UnorderedMap Key (ObjInfo F)}
  {entries : List (Key × ObjInfo F)} {n : Nat}

theorem lookup_mergeInfo (table : UnorderedMap Key (ObjInfo F)) (entry : Key × ObjInfo F)
    (k : Key) : ((mergeInfo table entry).lookup k).map objSize =
      if k = entry.1 then some entry.2.objSize else (table.lookup k).map objSize := by
  rw [mergeInfo]
  split
  · rw [lookup_insert_eq]
    split
    · rfl
    · rfl
  · rw [lookup_insert_eq]
    split
    · rfl
    · rfl

omit [Doubles F] in
/-- The entries of a table in the order of a visit. -/
theorem mem_entriesOf {entry : Key × ObjInfo F} :
    entry ∈ Statistics.entriesOf platform table ↔ table.lookup entry.1 = some entry.2 := by
  rw [Statistics.entriesOf, (platform.perm _).mem_iff, mem_map,
    ← mem_entries_iff]
  constructor
  · rintro ⟨⟨k, v⟩, hmem, rfl⟩
    exact hmem
  · intro hmem
    exact ⟨_, hmem, rfl⟩

omit [Doubles F] in
theorem nodup_entriesOf : ((Statistics.entriesOf platform table).map Prod.fst).Nodup := by
  have hperm := (platform.perm (table.entries.map fun entry => (entry.1, entry.2))).map Prod.fst
  refine hperm.nodup_iff.2 ?_
  rw [map_map]
  exact table.nodupKeys

omit [Doubles F] in
theorem sum_entriesOf (platform : Platform F) (table : UnorderedMap Key (ObjInfo F))
    (w : Key → Nat) :
    ((Statistics.entriesOf platform table).map fun entry => w entry.1).sum =
      table.sumBy fun key _ => w key := by
  have hperm := (platform.perm (table.entries.map fun entry => (entry.1, entry.2))).map
    fun entry => w entry.1
  rw [Statistics.entriesOf, hperm.sum_eq, map_map]
  rfl

omit [Doubles F] in
/-- Tables with the same keys have the same bytes. -/
theorem tableBytes_congr
    (h : ∀ key, (table'.lookup key).isSome = true ↔ (table.lookup key).isSome = true) :
    tableBytes table' = tableBytes table := by
  have hperm : table'.keys.Perm table.keys := by
    refine table'.perm_keys table.keys_nodup fun key => ?_
    rw [h, mem_keys_iff, Option.isSome_iff_exists]
  have hsum : ∀ u : UnorderedMap Key (ObjInfo F), tableBytes u = (u.keys.map infoBytes).sum := by
    intro u
    have hkeys : u.keys = u.entries.map Sigma.fst := rfl
    rw [tableBytes, sumBy, hkeys, map_map]
    rfl
  rw [hsum, hsum]
  exact (hperm.map infoBytes).sum_eq

/-- A smoothed table has the same keys with the same sizes. -/
theorem lookup_smooth (key : Key) :
    ((Statistics.smooth platform table).lookup key).map objSize =
      (table.lookup key).map objSize := by
  have hfold : ∀ (entries : List (Key × ObjInfo F)) (u : UnorderedMap Key (ObjInfo F)),
      (∀ entry ∈ entries, table.lookup entry.1 = some entry.2) →
      (∀ k, (u.lookup k).map objSize = (table.lookup k).map objSize) →
      ((entries.foldl (fun v entry => v.insert entry.1
        { entry.2 with requestCount := entry.2.requestCount * ofRat ewmaDecay }) u).lookup key).map
          objSize = (table.lookup key).map objSize := by
    intro entries
    induction entries with
    | nil => exact fun u _ hu => hu key
    | cons entry rest ih =>
      intro u hentries hu
      refine ih _ (fun e he => hentries e (mem_cons_of_mem _ he)) fun k => ?_
      rw [lookup_insert_eq]
      split
      · next hk => rw [hk, hentries entry mem_cons_self]; rfl
      · exact hu k
  exact hfold _ table (fun entry hentry => mem_entriesOf.1 hentry) fun _ => rfl

/-- What is found in a table after a list of entries has been merged into it. -/
theorem lookup_foldl_mergeInfo (target : Option Nat)
    (h : ∀ entry ∈ entries, entry.1 = key → target = some entry.2.objSize) :
    ((entries.foldl mergeInfo table).lookup key).map objSize =
      if key ∈ entries.map Prod.fst then target else (table.lookup key).map objSize := by
  induction entries generalizing table with
  | nil => rfl
  | cons entry rest ih =>
    rw [foldl_cons, ih fun e he => h e (mem_cons_of_mem _ he), map_cons]
    by_cases hrest : key ∈ rest.map Prod.fst
    · rw [if_pos hrest, if_pos (mem_cons_of_mem _ hrest)]
    · rw [if_neg hrest, lookup_mergeInfo]
      by_cases hk : key = entry.1
      · rw [if_pos hk, if_pos (hk ▸ mem_cons_self), h entry mem_cons_self hk.symm]
      · rw [if_neg hk, if_neg]
        exact fun hmem => (mem_cons.1 hmem).elim hk hrest

/-- The merge keeps the recorded sizes. -/
theorem lookup_mergedMetadata (key : Key) :
    ((mergedMetadata platform s).lookup key).map objSize = recordedSize s key := by
  have hkeys : key ∈ (Statistics.entriesOf platform s.intervalMetadata).map Prod.fst ↔
      ∃ info, s.intervalMetadata.lookup key = some info := by
    rw [mem_map]
    constructor
    · rintro ⟨entry, hentry, rfl⟩
      exact ⟨entry.2, mem_entriesOf.1 hentry⟩
    · rintro ⟨info, hinfo⟩
      exact ⟨(key, info), mem_entriesOf.2 hinfo, rfl⟩
  rw [mergedMetadata, lookup_foldl_mergeInfo ((s.intervalMetadata.lookup key).map objSize),
    lookup_smooth, recordedSize]
  · cases hinterval : s.intervalMetadata.lookup key with
    | some info =>
      rw [if_pos (hkeys.2 ⟨info, hinterval⟩)]
      rfl
    | none =>
      have hnot : key ∉ (Statistics.entriesOf platform s.intervalMetadata).map Prod.fst := by
        intro hmem
        obtain ⟨info, hinfo⟩ := hkeys.1 hmem
        rw [hinterval] at hinfo
        cases hinfo
      rw [if_neg hnot, Option.none_or]
  · rintro entry hentry rfl
    rw [mem_entriesOf.1 hentry, Option.map_some]

/-- The persisted entries are merged into the table, and their bytes leave the size. -/
theorem persist_spec (hb : Bounded s)
    (hsize : s.currentSize = n + tableBytes s.longTermMetadata +
      (entries.map fun entry => infoBytes entry.1).sum)
    (hpersist : entries.foldlM Statistics.persistInfo s = some t) :
    Bounded t ∧ t.currentSize = n + tableBytes t.longTermMetadata ∧
      t = { s with
        currentSize := t.currentSize
        longTermMetadata := entries.foldl mergeInfo s.longTermMetadata } := by
  induction entries generalizing s with
  | nil =>
    cases hpersist
    exact ⟨hb, hsize, rfl⟩
  | cons entry rest ih =>
    rw [foldlM_cons, Option.bind_eq_bind] at hpersist
    obtain ⟨u, hu, hrest⟩ := bind_eq_some_iff.1 hpersist
    rw [map_cons, sum_cons] at hsize
    have hstep : u = { s with
        currentSize := u.currentSize
        longTermMetadata := mergeInfo s.longTermMetadata entry } ∧
        u.currentSize = n + tableBytes u.longTermMetadata +
          (rest.map fun entry => infoBytes entry.1).sum := by
      obtain ⟨v, hv, rfl⟩ := Option.map_eq_some_iff.1 hu
      rw [Statistics.addLongTerm] at hv
      have hbytes := sumBy_insert (fun key (_ : ObjInfo F) => infoBytes key)
        s.longTermMetadata entry.1
      split at hv
      · next info hinfo =>
        cases hv
        have hmerge : mergeInfo s.longTermMetadata entry = s.longTermMetadata.insert entry.1
            { entry.2 with requestCount :=
              info.requestCount + (ofNat 1 - ofRat ewmaDecay) * entry.2.requestCount } := by
          rw [mergeInfo, hinfo]
        refine ⟨?_, ?_⟩
        · rw [hmerge]
          rfl
        · have hsum := hbytes { entry.2 with requestCount :=
            info.requestCount + (ofNat 1 - ofRat ewmaDecay) * entry.2.requestCount }
          rw [hinfo, Option.elim_some] at hsum
          have hsub := uint64Minus_eq (b := infoBytes entry.1) hb (by omega)
          dsimp only [Statistics.sub, tableBytes] at hsum ⊢
          rw [hsub]
          rw [tableBytes] at hsize
          omega
      · next hnone =>
        obtain ⟨m, hm, rfl⟩ := Option.map_eq_some_iff.1 hv
        have hmerge : mergeInfo s.longTermMetadata entry =
            s.longTermMetadata.insert entry.1 entry.2 := by
          rw [mergeInfo, hnone]
        refine ⟨?_, ?_⟩
        · rw [hmerge]
          rfl
        · have hsum := hbytes entry.2
          rw [hnone, Option.elim_none] at hsum
          have hadd : m = s.currentSize + infoBytes entry.1 := uint64Add_eq_some hm
          have hsub := uint64Minus_eq (b := infoBytes entry.1) (uint64Add_lt hm) (by omega)
          dsimp only [Statistics.sub, tableBytes] at hsum ⊢
          rw [hsub]
          rw [tableBytes] at hsize
          omega
    obtain ⟨hb', hsize', ht⟩ := ih (hb.persistInfo hu) hstep.2 hrest
    refine ⟨hb', hsize', ?_⟩
    rw [hstep.1] at ht
    exact ht

end Merge

/-! ## The visit of the entries -/

/-- The requests of an entry are so few that it is deleted. -/
def Dropped (entry : Key × ObjInfo F) : Bool := lt entry.2.requestCount (ofRat (1 / 10))

/-- Every deleted entry is followed by an entry whose key has the same length. -/
def SafeDrops : List (Key × ObjInfo F) → Prop
  | [] => True
  | entry :: rest =>
      (Dropped entry = true → rest.head?.any (fun next =>
        decide (next.1.getKeyLength = entry.1.getKeyLength)) = true) ∧ SafeDrops rest

/-- A visit of the entries deletes the entry of the key. -/
def Drops (entries : List (Key × ObjInfo F)) (key : Key) : Bool :=
  entries.any fun entry => decide (entry.1 = key) && Dropped entry

section Visit

variable {s t : Statistics F} {entry : Key × ObjInfo F} {entries : List (Key × ObjInfo F)}
  {rest : Nat}

omit [Doubles F] in
theorem recordedSize_of_empty (h : s.intervalMetadata = ∅) (key : Key) :
    recordedSize s key = (s.longTermMetadata.lookup key).map objSize := by
  rw [recordedSize, h]
  rfl

omit [Doubles F] in
/-- Both tables agree if one of them is empty. -/
theorem agree_of_empty (h : s.intervalMetadata = ∅) : ∀ key info,
    s.longTermMetadata.lookup key = some info → recordedSize s key = some info.objSize := by
  intro key info hinfo
  rw [recordedSize_of_empty h, hinfo, Option.map_some]

/-- One entry is visited. -/
theorem visitInfo_spec {next : Option Key} (h : Kept rest s) (hempty : s.intervalMetadata = ∅)
    (hentry : s.longTermMetadata.lookup entry.1 = some entry.2)
    (hnext : Dropped entry = true →
      next.map Key.getKeyLength = some entry.1.getKeyLength)
    (hvisit : Statistics.visitInfo platform s entry next = some t) :
    Kept rest t ∧ t.intervalMetadata = ∅ ∧
      t.longTermMetadata = if Dropped entry = true then s.longTermMetadata.erase entry.1
        else s.longTermMetadata := by
  have hlimit : s.currentSize < uint64Limit := h.bounded
  have hsize := h.size
  have hrecorded := h.agree entry.1 entry.2 hentry
  rw [Statistics.visitInfo] at hvisit
  split at hvisit
  · next hdrop =>
    obtain ⟨next', hnext', hlength⟩ := Option.map_eq_some_iff.1 (hnext hdrop)
    subst hnext'
    simp only [Statistics.nextKeyLength, some_bind, pure_eq_some_iff, hlength] at hvisit
    have hbytes := sumBy_erase (fun key (_ : ObjInfo F) => infoBytes key)
      s.longTermMetadata entry.1
    rw [hentry, Option.elim_some] at hbytes
    have hinfo : infoBytes entry.1 = entry.1.getKeyLength + 16 := rfl
    rw [tableBytes, tableBytes] at hsize
    have htracked : trackedBytes ({ s with
        longTermMetadata := s.longTermMetadata.erase entry.1 } : Statistics F) +
        entry.2.objSize = trackedBytes s := by
      refine trackedBytes_forget hrecorded fun k => ?_
      rw [recordedSize_of_empty (by exact hempty), lookup_erase_eq,
        recordedSize_of_empty hempty]
      split
      · rfl
      · rfl
    have hdropped : Dropped entry = true := hdrop
    subst hvisit
    have hstat := h.statSize
    have hstatLimit := h.statLimit
    have hdiff : (s.statSize + (uint64Limit - entry.2.objSize % uint64Limit)) % uint64Limit =
        s.statSize - entry.2.objSize := by
      have hle : entry.2.objSize ≤ s.statSize := by omega
      rw [Nat.mod_eq_of_lt (hle.trans_lt hstatLimit)]
      have hsplit : s.statSize + (uint64Limit - entry.2.objSize) =
          s.statSize - entry.2.objSize + uint64Limit := by omega
      rw [hsplit, Nat.add_mod_right, Nat.mod_eq_of_lt (by omega)]
    refine ⟨⟨Bounded.sub h.bounded _, ?_, agree_of_empty hempty, ?_, ?_⟩, hempty, ?_⟩
    · dsimp only [Statistics.sub, tableBytes, vectorBytes] at hsize ⊢
      rw [uint64Minus_eq hlimit (by omega)]
      omega
    · dsimp only [Statistics.sub]
      rw [hdiff]
      have hsame : trackedBytes ({ s with
          longTermMetadata := s.longTermMetadata.erase entry.1 } : Statistics F) =
          s.statSize - entry.2.objSize := by omega
      exact hsame.symm
    · dsimp only [Statistics.sub]
      rw [hdiff]
      omega
    · rw [if_pos hdropped]
      rfl
  · next hkeep =>
    obtain ⟨n, hn, rfl⟩ := Option.map_eq_some_iff.1 hvisit
    have hsum : n = s.currentSize + 16 := uint64Add_eq_some hn
    have hnot : ¬ Dropped entry = true := hkeep
    refine ⟨⟨uint64Add_lt hn, ?_, agree_of_empty hempty, h.statSize, h.statLimit⟩, hempty, ?_⟩
    · dsimp only [vectorBytes] at hsize ⊢
      rw [length_append, length_append, length_singleton, length_singleton]
      omega
    · rw [if_neg hnot]

/-- All entries of the table are visited. -/
theorem visitInfos_spec (h : Kept rest s) (hempty : s.intervalMetadata = ∅)
    (hnodup : (entries.map Prod.fst).Nodup)
    (hentries : ∀ entry ∈ entries, s.longTermMetadata.lookup entry.1 = some entry.2)
    (hsafe : SafeDrops entries)
    (hvisit : Statistics.visitInfos platform s entries = some t) :
    Kept rest t ∧ ∀ key, recordedSize t key =
      if Drops entries key = true then none else recordedSize s key := by
  induction entries generalizing s with
  | nil =>
    cases hvisit
    exact ⟨h, fun _ => rfl⟩
  | cons entry others ih =>
    obtain ⟨u, hu, hrest⟩ := bind_eq_some_iff.1 hvisit
    have hnot := (nodup_cons.1 hnodup).1
    obtain ⟨hkept, hempty', hlong⟩ := visitInfo_spec h hempty (hentries entry mem_cons_self)
      (by
        intro hdrop
        obtain ⟨next, hnext, hlength⟩ := (Option.any_eq_true _ _).1 (hsafe.1 hdrop)
        rw [hnext, Option.map_some, Option.map_some, of_decide_eq_true hlength]) hu
    have hlookup : ∀ key, u.longTermMetadata.lookup key =
        if key = entry.1 ∧ Dropped entry = true then none else s.longTermMetadata.lookup key := by
      intro key
      rw [hlong]
      by_cases hdrop : Dropped entry = true
      · rw [if_pos hdrop, lookup_erase_eq]
        simp only [hdrop, and_true]
      · rw [if_neg hdrop, if_neg (fun hand => hdrop hand.2)]
    obtain ⟨hfinal, hrecorded⟩ := ih hkept hempty' (nodup_cons.1 hnodup).2 (by
      intro e he
      have hne : ¬ (e.1 = entry.1 ∧ Dropped entry = true) := fun hand =>
        hnot (hand.1 ▸ mem_map_of_mem he)
      rw [hlookup, if_neg hne]
      exact hentries e (mem_cons_of_mem _ he)) hsafe.2 hrest
    refine ⟨hfinal, fun key => ?_⟩
    have hcons : Drops (entry :: others) key =
        (decide (entry.1 = key) && Dropped entry || Drops others key) := rfl
    rw [hrecorded, hcons, recordedSize_of_empty hempty', recordedSize_of_empty hempty, hlookup]
    simp only [Bool.or_eq_true, Bool.and_eq_true, decide_eq_true_eq]
    by_cases hdrops : Drops others key = true
    · rw [if_pos hdrops, if_pos (.inr hdrops)]
    · rw [if_neg hdrops]
      by_cases hthis : key = entry.1 ∧ Dropped entry = true
      · rw [if_pos hthis, if_pos (.inl ⟨hthis.1.symm, hthis.2⟩), Option.map_none]
      · have hnone : ¬ ((entry.1 = key ∧ Dropped entry = true) ∨ Drops others key = true) :=
          fun hor => hor.elim (fun hand => hthis ⟨hand.1.symm, hand.2⟩) hdrops
        rw [if_neg hthis, if_neg hnone]

end Visit

/-! ## Reconfigurations and accesses -/

/-- The next access ends a period with enough data. -/
def Renews (cacheSize : Nat) (s : Statistics F) : Prop :=
  ¬ s.nextReconfiguration - 1 > 0 ∧ ¬ s.statSize ≤ cacheSize * 3 % uint64Limit

instance (cacheSize : Nat) (s : Statistics F) : Decidable (Renews cacheSize s) :=
  inferInstanceAs (Decidable (¬ s.nextReconfiguration - 1 > 0 ∧
    ¬ s.statSize ≤ cacheSize * 3 % uint64Limit))

/-- The accesses that are counted right: a deleted entry is followed by one of the same key length,
the size of a tracked object has not changed unless its entry is deleted by this access, and the sum
of the sizes is a 64-bit number. -/
def CountMeets (platform : Platform F) (cacheSize : Nat) (s : Statistics F) (key : Key)
    (objectSize : Nat) : Prop :=
  (Renews cacheSize s → SafeDrops (visited platform s)) ∧
    (∀ old ∈ recordedSize s key, old = objectSize ∨
      (Renews cacheSize s ∧ Drops (visited platform s) key = true)) ∧
    s.statSize + objectSize < uint64Limit

section Reconfigure

variable {s t : Statistics F} {rest : Nat}

/-- The counters and the vectors are renewed. -/
theorem Kept.renewStatistics (h : Kept rest s) (hsafe : SafeDrops (visited platform s))
    (hrenew : Statistics.renewStatistics platform s = some t) :
    Kept rest t ∧ ∀ key, recordedSize t key =
      if Drops (visited platform s) key = true then none else recordedSize s key := by
  simp only [Statistics.renewStatistics, bind_eq_some_iff] at hrenew
  obtain ⟨u, hfold, hvisit⟩ := hrenew
  have hsmooth : tableBytes (Statistics.smooth platform s.longTermMetadata) =
      tableBytes s.longTermMetadata := by
    refine tableBytes_congr fun key => ?_
    rw [← Option.isSome_map (f := objSize), lookup_smooth, Option.isSome_map]
  have hentries := sum_entriesOf platform s.intervalMetadata infoBytes
  obtain ⟨hbounded, hsize, hu⟩ := persist_spec (n := rest + vectorBytes s)
    (s := { s with longTermMetadata := Statistics.smooth platform s.longTermMetadata }) h.bounded
    (by
      dsimp only
      rw [hsmooth, hentries, h.size, tableBytes]
      omega) hfold
  have hmerged : u.longTermMetadata = mergedMetadata platform s := by
    rw [hu]
    rfl
  have hlengths : vectorBytes u = vectorBytes s := by
    rw [hu]
    rfl
  have hvector : vectorBytes u = 8 * (u.alignedReqCount.length + u.alignedObjSize.length +
      u.alignedAdmProb.length) := rfl
  have hbound : u.currentSize < uint64Limit := hbounded
  have hcleared : uint64Minus (uint64Minus u.currentSize (u.alignedReqCount.length * 8))
      (u.alignedObjSize.length * 8) = rest + tableBytes u.longTermMetadata +
        8 * u.alignedAdmProb.length := by
    rw [uint64Minus_eq (b := u.alignedReqCount.length * 8) hbound (by omega),
      uint64Minus_eq (by omega) (by omega)]
    omega
  have hrecorded : ∀ key, (u.longTermMetadata.lookup key).map objSize =
      recordedSize s key := by
    intro key
    rw [hmerged, lookup_mergedMetadata]
  -- the state in which the visit begins
  have hstart : Kept rest ({ u with
      currentSize := uint64Minus (uint64Minus u.currentSize (u.alignedReqCount.length * 8))
        (u.alignedObjSize.length * 8)
      intervalMetadata := ∅
      alignedReqCount := []
      alignedObjSize := [] } : Statistics F) := by
    have hstat : u.statSize = s.statSize := by rw [hu]
    have htracked : trackedBytes ({ u with
        currentSize := uint64Minus (uint64Minus u.currentSize (u.alignedReqCount.length * 8))
          (u.alignedObjSize.length * 8)
        intervalMetadata := ∅
        alignedReqCount := []
        alignedObjSize := [] } : Statistics F) = trackedBytes s := by
      refine trackedBytes_congr fun key => ?_
      rw [recordedSize_of_empty rfl]
      exact hrecorded key
    refine ⟨?_, ?_, agree_of_empty rfl, ?_, ?_⟩
    · exact (uint64Minus_le _ _).trans_lt ((uint64Minus_le _ _).trans_lt hbound)
    · dsimp only [vectorBytes, tableBytes]
      rw [hcleared, length_nil, tableBytes]
      have hnil : (∅ : UnorderedMap Key (ObjInfo F)).sumBy (fun key _ => infoBytes key) = 0 := rfl
      omega
    · rw [htracked]
      exact hstat.trans h.statSize
    · exact hstat.trans_lt h.statLimit
  have hvisited : Statistics.entriesOf platform u.longTermMetadata = visited platform s := by
    rw [hmerged]
    rfl
  obtain ⟨hkept, hfinal⟩ := visitInfos_spec hstart rfl nodup_entriesOf
    (fun entry hentry => mem_entriesOf.1 hentry) (hvisited ▸ hsafe) hvisit
  refine ⟨hkept, fun key => ?_⟩
  rw [hfinal, recordedSize_of_empty rfl]
  dsimp only [Statistics.sub]
  rw [hvisited, hrecorded]

/-- What a reconfiguration keeps, and which objects are tracked no more. -/
theorem Kept.reconfigure (h : Kept rest s)
    (hsafe : Renews cacheSize s → SafeDrops (visited platform s))
    (hreconfigure : s.reconfigure platform cacheSize = some t) :
    Kept rest t ∧ ∀ key, recordedSize t key =
      if Renews cacheSize s ∧ Drops (visited platform s) key = true then none
      else recordedSize s key := by
  have hidle : ∀ n, Kept rest { s with nextReconfiguration := n } := fun n =>
    ⟨h.bounded, h.size, h.agree, h.statSize, h.statLimit⟩
  simp only [Statistics.reconfigure] at hreconfigure
  split at hreconfigure
  · next hmore =>
    cases hreconfigure
    refine ⟨hidle _, fun key => ?_⟩
    rw [if_neg fun hand => hand.1.1 hmore]
    rfl
  · next hend =>
    split at hreconfigure
    · next hfew =>
      cases hreconfigure
      refine ⟨hidle _, fun key => ?_⟩
      rw [if_neg fun hand => hand.1.2 hfew]
      rfl
    · next henough =>
      have hrenews : Renews cacheSize s := ⟨hend, henough⟩
      simp only [bind_eq_some_iff] at hreconfigure
      obtain ⟨u, hrenew, hchoose⟩ := hreconfigure
      obtain ⟨hu, hrecorded⟩ := (hidle reconfigurationInterval).renewStatistics (hsafe hrenews)
        hrenew
      obtain ⟨ht, hsame⟩ := hu.chooseScale hchoose
      refine ⟨ht, fun key => ?_⟩
      rw [hsame, hrecorded]
      simp only [hrenews, true_and]
      rfl

omit [Doubles F] in
/-- An object has an entry in `intervalMetadata` now, with the size that was recorded for it. -/
theorem Kept.track (h : Kept rest s) (info : ObjInfo F)
    (hsame : ∀ n, recordedSize s key = some n → n = info.objSize)
    (hfits : s.statSize + info.objSize < uint64Limit) (hlimit : t.currentSize < uint64Limit)
    (hinterval : t.intervalMetadata = s.intervalMetadata.insert key info)
    (hlong : t.longTermMetadata = s.longTermMetadata) (hvectors : vectorBytes t = vectorBytes s)
    (hsize : t.currentSize = s.currentSize +
      if (s.intervalMetadata.lookup key).isSome = true then 0 else infoBytes key)
    (hstat : t.statSize = if (s.intervalMetadata.lookup key).isNone &&
        (s.longTermMetadata.lookup key).isNone then
      (s.statSize + info.objSize) % uint64Limit else s.statSize) : Kept rest t := by
  have hrecorded : ∀ k, recordedSize t k =
      if k = key then some info.objSize else recordedSize s k := by
    intro k
    rw [recordedSize, hinterval, hlong, lookup_insert_eq, recordedSize]
    split
    · rfl
    · rfl
  have hnew : ((s.intervalMetadata.lookup key).isNone &&
      (s.longTermMetadata.lookup key).isNone) = true ↔ recordedSize s key = none := by
    rw [recordedSize, Option.map_eq_none_iff, Option.or_eq_none_iff, Bool.and_eq_true,
      Option.isNone_iff_eq_none, Option.isNone_iff_eq_none]
  have hkept := h.statSize
  have htracked : t.statSize = trackedBytes t ∧ t.statSize < uint64Limit := by
    cases hold : recordedSize s key with
    | none =>
      rw [hstat, if_pos (hnew.2 hold), Nat.mod_eq_of_lt hfits]
      have hforget : trackedBytes s + info.objSize = trackedBytes t := by
        have htracked : recordedSize t key = some info.objSize := by rw [hrecorded, if_pos rfl]
        refine trackedBytes_forget htracked fun k => ?_
        by_cases hk : k = key
        · rw [if_pos hk, hk, hold]
        · rw [if_neg hk, hrecorded, if_neg hk]
      exact ⟨by omega, hfits⟩
    | some old =>
      have hnot : ¬ recordedSize s key = none := by
        rw [hold]
        exact Option.some_ne_none old
      rw [hstat, if_neg fun hboth => hnot (hnew.1 hboth)]
      refine ⟨hkept.trans (trackedBytes_congr fun k => ?_).symm, h.statLimit⟩
      rw [hrecorded]
      by_cases hk : k = key
      · rw [if_pos hk, hk, hold, hsame old hold]
      · rw [if_neg hk]
  refine ⟨hlimit, ?_, ?_, htracked.1, htracked.2⟩
  · have hbytes := sumBy_insert (fun key (_ : ObjInfo F) => infoBytes key)
      s.intervalMetadata key info
    have hold := h.size
    rw [hlong, hvectors, hinterval]
    rw [tableBytes] at hold ⊢
    cases hlookup : s.intervalMetadata.lookup key with
    | none =>
      rw [hlookup, Option.elim_none] at hbytes
      rw [hlookup, Option.isSome_none, if_neg Bool.false_ne_true] at hsize
      omega
    | some info' =>
      rw [hlookup, Option.elim_some] at hbytes
      rw [hlookup, Option.isSome_some, if_pos rfl] at hsize
      omega
  · intro k old hold
    rw [hlong] at hold
    have hagree := h.agree k old hold
    rw [hrecorded]
    by_cases hk : k = key
    · subst hk
      rw [if_pos rfl, hsame _ hagree]
    · rw [if_neg hk]
      exact hagree

/-- An access of an object is counted. -/
theorem Kept.metadataUpdate {objectSize : Nat} (h : Kept rest s)
    (hmeets : CountMeets platform cacheSize s key objectSize)
    (hupdate : s.metadataUpdate platform cacheSize key objectSize = some t) : Kept rest t := by
  obtain ⟨hsafe, hsame, hlimit⟩ := hmeets
  simp only [Statistics.metadataUpdate, bind_eq_some_iff] at hupdate
  obtain ⟨u, hreconfigure, hcount⟩ := hupdate
  obtain ⟨hu, hrecorded⟩ := h.reconfigure hsafe hreconfigure
  have hforgets : ∀ k n, recordedSize u k = some n → recordedSize s k = some n := by
    intro k n hn
    rw [hrecorded] at hn
    split at hn
    · cases hn
    · exact hn
  have hsize : ∀ n, recordedSize u key = some n → n = objectSize := by
    intro n hn
    rcases hsame n (hforgets key n hn) with heq | hdropped
    · exact heq
    · rw [hrecorded, if_pos hdropped] at hn
      cases hn
  have hfits : u.statSize + objectSize < uint64Limit := by
    have hle := trackedBytes_le hforgets
    have hstat := hu.statSize
    have hstat' := h.statSize
    omega
  split at hcount
  · next info hinfo =>
    have hentry : (u.intervalMetadata.lookup key).isSome = true := by rw [hinfo, Option.isSome_some]
    cases hcount
    refine hu.track ⟨info.requestCount + ofNat 1, objectSize⟩ hsize hfits hu.bounded rfl rfl rfl ?_
      rfl
    rw [if_pos hentry]
    rfl
  · next hnone =>
    have hentry : ¬ (u.intervalMetadata.lookup key).isSome = true := by
      rw [hnone, Option.isSome_none]
      exact Bool.false_ne_true
    obtain ⟨m, hm, rfl⟩ := Option.map_eq_some_iff.1 hcount
    refine hu.track ⟨ofNat 1, objectSize⟩ hsize hfits (uint64Add_lt hm) rfl rfl rfl ?_ rfl
    rw [if_neg hentry]
    exact uint64Add_eq_some hm

end Reconfigure

/-! ## The operations -/

open AdaptSizeCache

/-- The bytes of an object. -/
def itemBytes (item : Item) : Nat := objectSize item.1 item.2

/-- Bytes of an entry of the lookup table: the key and an iterator. -/
def lookupBytes (key : Key) : Nat := key.getKeyLength + 8

/-- The fixed overhead. -/
def overheadBytes : Nat := 2 * 8 + 4 * 8

/-- The operations that count right. A lookup counts the size of the cached object. -/
def Meets (platform : Platform F) (s : AdaptSizeCache F) : Action → Prop
  | .lookup key => ∀ item ∈ found s.cacheMap s.cacheList.get key,
      CountMeets platform s.cacheSize s.stats key (objectSize key item.2)
  | .update key value => CountMeets platform s.cacheSize s.stats key (objectSize key value)
  | _ => True

/-- The lookup table and the counters of the whole cache are right. -/
def Booked (s : AdaptSizeCache F) : Prop :=
  ∃ n, IndexedList Prod.fst itemBytes lookupBytes s.cacheList s.cacheMap n ∧
    Kept (overheadBytes + n) s.stats

section Operations

variable {s t : AdaptSizeCache F} {stats stats' : Statistics F} {rest bytes : Nat} {it : Nat}
  {item : Item}

omit [Doubles F] in
theorem Kept.add (h : Kept rest stats) (hadd : stats.add bytes = some stats') :
    Kept (rest + bytes) stats' := by
  obtain ⟨n, hn, rfl⟩ := Option.map_eq_some_iff.1 hadd
  refine ⟨uint64Add_lt hn, ?_, h.agree, h.statSize, h.statLimit⟩
  have hsize := h.size
  have hsum := uint64Add_eq_some hn
  rw [vectorBytes] at hsize ⊢
  dsimp only
  omega

omit [Doubles F] in
theorem Kept.sub (h : Kept (rest + bytes) stats) : Kept rest (stats.sub bytes) := by
  have hsize := h.size
  have hlimit : stats.currentSize < uint64Limit := h.bounded
  refine ⟨h.bounded.sub bytes, ?_, h.agree, h.statSize, h.statLimit⟩
  rw [vectorBytes] at hsize ⊢
  dsimp only [Statistics.sub]
  rw [uint64Minus_eq hlimit (by omega)]
  omega

theorem booked_create (cacheSize : Nat) : Booked (create cacheSize : AdaptSizeCache F) := by
  refine ⟨0, IndexedList.empty, ⟨?_, rfl, ?_, rfl, ?_⟩⟩
  · exact show 2 * 8 + 4 * 8 < uint64Limit by decide
  · intro key info hinfo
    cases hinfo
  · exact show 0 < uint64Limit by decide

theorem Booked.metadataUpdate (h : Booked s)
    (hmeets : CountMeets platform s.cacheSize s.stats key (objectSize key value))
    (hupdate : s.metadataUpdate platform key value = some t) : Booked t := by
  obtain ⟨n, hindexed, hkept⟩ := h
  obtain ⟨stats, hstats, rfl⟩ := Option.map_eq_some_iff.1 hupdate
  exact ⟨n, hindexed, hkept.metadataUpdate hmeets hstats⟩

theorem Booked.lookup {result : Option Value} (h : Booked s)
    (hmeets : Meets platform s (.lookup key))
    (hlookup : s.lookup platform key = some (t, result)) : Booked t := by
  obtain ⟨n, hindexed, hkept⟩ := h
  rw [AdaptSizeCache.lookup] at hlookup
  split at hlookup
  · cases hlookup
    exact ⟨n, hindexed, hkept⟩
  · next it _ =>
    simp only [bind_eq_some_iff, require_eq_some_iff, pure_eq_some_iff, Prod.mk.injEq] at hlookup
    obtain ⟨item, hget, -, rfl, u, hupdate, rfl, -⟩ := hlookup
    have hcount := hmeets item (hindexed.indexes.found_of_get hget)
    have hmoved : Booked { s with cacheList := s.cacheList.moveToFront it } :=
      ⟨n, hindexed.moveToFront hget, hkept⟩
    exact hmoved.metadataUpdate hcount hupdate

omit [Doubles F] in
/-- A new object takes the place of the object of its key; the counters stay. -/
theorem Booked.replaceObject (h : Booked s) (hreplace : s.replaceObject key value it = some t) :
    Booked t ∧ t.cacheSize = s.cacheSize ∧
      ∃ n, t.stats = { s.stats with currentSize := n } := by
  obtain ⟨n, hindexed, hkept⟩ := h
  simp only [AdaptSizeCache.replaceObject, bind_eq_some_iff, require_eq_some_iff,
    pure_eq_some_iff] at hreplace
  obtain ⟨item, hget, -, rfl, stats, hadd, rfl⟩ := hreplace
  have hle := hindexed.le_size hget
  have hadded := hkept.add hadd
  have hsum : overheadBytes + n + objectSize item.1 value =
      overheadBytes + (n - itemBytes item + itemBytes (item.1, value)) +
        objectSize item.1 item.2 := by
    have hold : itemBytes item = objectSize item.1 item.2 := rfl
    have hnew : itemBytes (item.1, value) = objectSize item.1 value := rfl
    omega
  rw [hsum] at hadded
  refine ⟨⟨_, hindexed.replaceFront (b := (item.1, value)) hget rfl, hadded.sub⟩, rfl, ?_⟩
  obtain ⟨m, -, rfl⟩ := Option.map_eq_some_iff.1 hadd
  exact ⟨_, rfl⟩

theorem Booked.update {isCached : Bool} (h : Booked s)
    (hmeets : Meets platform s (.update key value))
    (hupdate : s.update platform key value = some (t, isCached)) : Booked t := by
  rw [AdaptSizeCache.update] at hupdate
  split at hupdate
  · obtain ⟨u, hmetadata, heq⟩ := Option.map_eq_some_iff.1 hupdate
    cases heq
    exact h.metadataUpdate hmeets hmetadata
  · simp only [bind_eq_some_iff] at hupdate
    obtain ⟨u, hreplace, hrest⟩ := hupdate
    obtain ⟨v, hmetadata, heq⟩ := Option.map_eq_some_iff.1 hrest
    cases heq
    obtain ⟨hbooked, hsize, m, hstats⟩ := h.replaceObject hreplace
    refine hbooked.metadataUpdate ?_ hmetadata
    -- the condition does not look at the size of the cache
    rw [hsize, hstats]
    exact hmeets

omit [Doubles F] in
theorem Booked.admitObject (h : Booked s) (hadmitted : s.admitObject key value = some t) :
    Booked t := by
  obtain ⟨n, hindexed, hkept⟩ := h
  simp only [AdaptSizeCache.admitObject, bind_eq_some_iff, require_eq_some_iff,
    pure_eq_some_iff] at hadmitted
  obtain ⟨-, hnew, -, -, -, -, stats, hadd, stats', hadd', rfl⟩ := hadmitted
  rw [isCached, Option.isSome_eq_false_iff, Option.isNone_iff_eq_none] at hnew
  have hadded := (hkept.add hadd).add hadd'
  refine ⟨n + itemBytes (key, value) + lookupBytes key,
    hindexed.pushFront (a := (key, value)) hnew, ?_⟩
  rw [← Nat.add_assoc, ← Nat.add_assoc]
  exact hadded

omit [Doubles F] in
theorem Booked.evict {result : Option Value} (h : Booked s)
    (hevict : s.evict key = some (t, result)) : Booked t := by
  obtain ⟨n, hindexed, hkept⟩ := h
  rw [AdaptSizeCache.evict] at hevict
  split at hevict
  · cases hevict
    exact ⟨n, hindexed, hkept⟩
  · next it hlookup =>
    simp only [bind_eq_some_iff, pure_eq_some_iff, Prod.mk.injEq] at hevict
    obtain ⟨item, hget, rfl, -⟩ := hevict
    obtain ⟨item', hget', rfl⟩ := hindexed.get_of_lookup hlookup
    rw [hget, Option.some.injEq] at hget'
    subst hget'
    have hle := hindexed.le_size hget
    have hsum : overheadBytes + n = overheadBytes + (n - (itemBytes item + lookupBytes item.1)) +
        objectSize item.1 item.2 + (item.1.getKeyLength + 8) := by
      have hbytes : itemBytes item = objectSize item.1 item.2 := rfl
      have hentry : lookupBytes item.1 = item.1.getKeyLength + 8 := rfl
      omega
    rw [hsum] at hkept
    exact ⟨_, hindexed.erase hget, hkept.sub.sub⟩

end Operations

/-! ## Reads of the entries -/

/-- The platform with something else behind the last entry of a table. -/
def Platform.withRead (platform : Platform F) (readAtEnd : Statistics F → Option Nat) :
    Platform F :=
  { platform with readAtEnd := readAtEnd }

/-- An operation reads only entries that are in the table: it does not matter what is behind the
last one. -/
def ReadsEntries (platform : Platform F) (s : AdaptSizeCache F) (a : Action) : Prop :=
  ∀ readAtEnd, step (platform.withRead readAtEnd) s a = step platform s a

section Reads

variable {s t : Statistics F} {entry : Key × ObjInfo F} {entries : List (Key × ObjInfo F)}
  {readAtEnd : Statistics F → Option Nat}

theorem longTerm_persistInfo (h : Statistics.persistInfo s entry = some t) :
    t.longTermMetadata = mergeInfo s.longTermMetadata entry := by
  obtain ⟨u, hu, rfl⟩ := Option.map_eq_some_iff.1 h
  rw [Statistics.addLongTerm] at hu
  split at hu
  · next info hinfo =>
    cases hu
    rw [mergeInfo, hinfo]
    rfl
  · next hnone =>
    obtain ⟨n, -, rfl⟩ := Option.map_eq_some_iff.1 hu
    rw [mergeInfo, hnone]
    rfl

theorem longTerm_persist (h : entries.foldlM Statistics.persistInfo s = some t) :
    t.longTermMetadata = entries.foldl mergeInfo s.longTermMetadata := by
  induction entries generalizing s with
  | nil =>
    cases h
    rfl
  | cons entry rest ih =>
    rw [foldlM_cons, Option.bind_eq_bind] at h
    obtain ⟨u, hu, hrest⟩ := bind_eq_some_iff.1 h
    rw [ih hrest, longTerm_persistInfo hu, foldl_cons]

/-- A deleted entry that is not the last one is followed by the entry that is read. -/
theorem visitInfos_withRead (hsafe : SafeDrops entries) :
    Statistics.visitInfos (platform.withRead readAtEnd) s entries =
      Statistics.visitInfos platform s entries := by
  induction entries generalizing s with
  | nil => rfl
  | cons entry rest ih =>
    have hvisit : Statistics.visitInfo (platform.withRead readAtEnd) s entry
        (rest.head?.map Prod.fst) =
        Statistics.visitInfo platform s entry (rest.head?.map Prod.fst) := by
      rw [Statistics.visitInfo, Statistics.visitInfo]
      split
      · next hdrop =>
        obtain ⟨next, hnext, -⟩ := (Option.any_eq_true _ _).1 (hsafe.1 hdrop)
        rw [hnext]
        rfl
      · rfl
    rw [Statistics.visitInfos, Statistics.visitInfos, hvisit]
    congr 1
    funext t
    exact ih hsafe.2

theorem renewStatistics_withRead (hsafe : SafeDrops (visited platform s)) :
    Statistics.renewStatistics (platform.withRead readAtEnd) s =
      Statistics.renewStatistics platform s := by
  have hmerge : ∀ {u : Statistics F},
      (Statistics.entriesOf platform s.intervalMetadata).foldlM Statistics.persistInfo
        { s with longTermMetadata := Statistics.smooth platform s.longTermMetadata } = some u →
      SafeDrops (Statistics.entriesOf platform u.longTermMetadata) := by
    intro u hu
    rw [longTerm_persist hu]
    exact hsafe
  have hsame : ∀ table : UnorderedMap Key (ObjInfo F),
      Statistics.entriesOf (platform.withRead readAtEnd) table =
        Statistics.entriesOf platform table := fun _ => rfl
  have hsmooth : Statistics.smooth (platform.withRead readAtEnd) s.longTermMetadata =
      Statistics.smooth platform s.longTermMetadata := rfl
  simp only [Statistics.renewStatistics, Option.bind_eq_bind, hsame, hsmooth]
  cases hfold : (Statistics.entriesOf platform s.intervalMetadata).foldlM Statistics.persistInfo
      { s with longTermMetadata := Statistics.smooth platform s.longTermMetadata } with
  | none => rfl
  | some u =>
    rw [Option.bind_some, Option.bind_some]
    have hsafe' := hmerge hfold
    exact visitInfos_withRead hsafe'

theorem reconfigure_withRead (hsafe : Renews cacheSize s → SafeDrops (visited platform s)) :
    s.reconfigure (platform.withRead readAtEnd) cacheSize = s.reconfigure platform cacheSize := by
  simp only [Statistics.reconfigure]
  split
  · rfl
  · next hend =>
    split
    · rfl
    · next henough =>
      have hrenews : Renews cacheSize s := ⟨hend, henough⟩
      rw [renewStatistics_withRead (s := { s with nextReconfiguration := reconfigurationInterval })
        (hsafe hrenews)]

theorem metadataUpdate_withRead {objectSize : Nat}
    (hmeets : CountMeets platform cacheSize s key objectSize) :
    s.metadataUpdate (platform.withRead readAtEnd) cacheSize key objectSize =
      s.metadataUpdate platform cacheSize key objectSize := by
  simp only [Statistics.metadataUpdate, reconfigure_withRead hmeets.1]

end Reads

/-- Under the condition every read of an operation is of an entry of the table. -/
theorem Booked.readsEntries {s : AdaptSizeCache F} {a : Action} (h : Booked s)
    (hmeets : Meets platform s a) : ReadsEntries platform s a := by
  intro readAtEnd
  have hbooked := h
  obtain ⟨n, hindexed, -⟩ := h
  cases a with
  | lookup key =>
    simp only [step, AdaptSizeCache.lookup]
    cases hlookup : s.cacheMap.lookup key with
    | none => rfl
    | some it =>
      obtain ⟨item, hget, rfl⟩ := hindexed.get_of_lookup hlookup
      have hcount := hmeets item (hindexed.indexes.found_of_get hget)
      simp only [hget, some_bind, AdaptSizeCache.metadataUpdate, metadataUpdate_withRead hcount]
  | update key value =>
    simp only [step, AdaptSizeCache.update]
    cases hlookup : s.cacheMap.lookup key with
    | none => simp only [AdaptSizeCache.metadataUpdate, metadataUpdate_withRead hmeets]
    | some it =>
      cases hreplace : s.replaceObject key value it with
      | none => simp only [hreplace, Option.bind_eq_bind, Option.bind_none]
      | some u =>
        obtain ⟨-, hsize, m, hstats⟩ := hbooked.replaceObject hreplace
        have hcount : CountMeets platform u.cacheSize u.stats key (objectSize key value) := by
          rw [hsize, hstats]
          exact hmeets
        simp only [hreplace, some_bind, AdaptSizeCache.metadataUpdate,
          metadataUpdate_withRead hcount]
  | admitObject key value => rfl
  | getVictimKey => rfl
  | evict key => rfl

/-! ## Every run -/

section Runs

variable {s t : AdaptSizeCache F} {a : Action} {out : Output}

theorem Booked.step (h : Booked s) (hmeets : Meets platform s a)
    (hstep : step platform s a = some (t, out)) : Booked t := by
  cases a with
  | lookup key =>
    obtain ⟨r, hlookup, heq⟩ := Option.map_eq_some_iff.1 hstep
    cases heq
    exact h.lookup hmeets hlookup
  | update key value =>
    obtain ⟨r, hupdate, heq⟩ := Option.map_eq_some_iff.1 hstep
    cases heq
    exact h.update hmeets hupdate
  | admitObject key value =>
    obtain ⟨u, hadmitted, heq⟩ := Option.map_eq_some_iff.1 hstep
    cases heq
    exact h.admitObject hadmitted
  | getVictimKey =>
    cases hstep
    exact h
  | evict key =>
    obtain ⟨r, hevict, heq⟩ := Option.map_eq_some_iff.1 hstep
    cases heq
    exact h.evict hevict

/-- The books of the cache in a state: the size is the sum of all it counts, `statSize` is the sum
of the tracked objects, and the next operation that meets the condition reads only entries of a
table. -/
structure BooksKept (platform : Platform F) (s : AdaptSizeCache F) : Prop where
  size : s.getSizeForCapacity = overheadBytes + (s.cacheList.toList.map itemBytes).sum +
    (s.cacheMap.sumBy fun key _ => lookupBytes key) + tableBytes s.stats.intervalMetadata +
    tableBytes s.stats.longTermMetadata + vectorBytes s.stats
  statSize : s.stats.statSize = trackedBytes s.stats
  reads : ∀ a, Meets platform s a → ReadsEntries platform s a

theorem booksKept_of_runs {tr : List (Action × Output)}
    (hrun : Runs (Adaptsize.step platform) (Meets platform) (create cacheSize : AdaptSizeCache F)
      tr s) : BooksKept platform s := by
  have hbooked : Booked s := by
    refine hrun.invariant (P := Booked) (booked_create cacheSize) ?_
    intro t a t' b h hmeets hstep
    exact h.step hmeets hstep
  obtain ⟨n, hindexed, hkept⟩ := hbooked
  refine ⟨?_, hkept.statSize, fun a hmeets => Booked.readsEntries ⟨n, hindexed, hkept⟩ hmeets⟩
  have hobjects : n = (s.cacheList.toList.map itemBytes).sum +
      s.cacheMap.sumBy fun key _ => lookupBytes key := hindexed.size
  rw [hobjects, ← Nat.add_assoc] at hkept
  exact hkept.size

end Runs

/-! ## Concrete runs -/

open Doubles (rationals)

instance decidableSafeDrops : (entries : List (Key × ObjInfo F)) → Decidable (SafeDrops entries)
  | [] => inferInstanceAs (Decidable True)
  | entry :: rest =>
      have : Decidable (SafeDrops rest) := decidableSafeDrops rest
      inferInstanceAs (Decidable ((Dropped entry = true → rest.head?.any (fun next =>
        decide (next.1.getKeyLength = entry.1.getKeyLength)) = true) ∧ SafeDrops rest))

instance (platform : Platform F) (cacheSize : Nat) (s : Statistics F) (key : Key)
    (objectSize : Nat) : Decidable (CountMeets platform cacheSize s key objectSize) :=
  inferInstanceAs (Decidable ((Renews cacheSize s → SafeDrops (visited platform s)) ∧
    (∀ old ∈ recordedSize s key, old = objectSize ∨
      (Renews cacheSize s ∧ Drops (visited platform s) key = true)) ∧
    s.statSize + objectSize < uint64Limit))

instance (platform : Platform F) (s : AdaptSizeCache F) :
    (a : Action) → Decidable (Meets platform s a)
  | .lookup key => inferInstanceAs (Decidable (∀ item ∈ found s.cacheMap s.cacheList.get key,
      CountMeets platform s.cacheSize s.stats key (objectSize key item.2)))
  | .update key value => inferInstanceAs (Decidable
      (CountMeets platform s.cacheSize s.stats key (objectSize key value)))
  | .admitObject _ _ => inferInstanceAs (Decidable True)
  | .getVictimKey => inferInstanceAs (Decidable True)
  | .evict _ => inferInstanceAs (Decidable True)

/-- A cache of 300 bytes that one object of 1001 bytes has been requested from, before the end of
the first period. -/
def requested (n : Nat) : AdaptSizeCache ℚ where
  cacheSize := 300
  stats := {
    currentSize := overheadBytes + 17
    cParam := 2 ^ 15
    statSize := 1001
    nextReconfiguration := reconfigurationInterval - n
    intervalMetadata := (∅ : UnorderedMap Key (ObjInfo ℚ)).insert ⟨[1]⟩ ⟨n, 1001⟩ }

theorem exists_requested {n : Nat} (hn : n + 1 < reconfigurationInterval) :
    ∃ tr, Runs (@step ℚ rationals storedOrder) (@Meets ℚ rationals storedOrder)
      (@create ℚ rationals 300) tr (requested (n + 1)) := by
  induction n with
  | zero =>
    have hmeets : @Meets ℚ rationals storedOrder (@create ℚ rationals 300)
        (.update ⟨[1]⟩ (.ofSize 1000)) := by decide +kernel
    exact ⟨[(.update ⟨[1]⟩ (.ofSize 1000), .flag false)], .cons .nil hmeets rfl⟩
  | succ n ih =>
    obtain ⟨tr, hrun⟩ := ih (Nat.lt_of_succ_lt hn)
    have hnext : reconfigurationInterval - (n + 1) - 1 > 0 := by omega
    have hmeets : @Meets ℚ rationals storedOrder (requested (n + 1))
        (.update ⟨[1]⟩ (.ofSize 1000)) := by
      refine ⟨fun hrenews => absurd hnext hrenews.1, ?_, ?_⟩
      · intro old hold
        exact .inl (Option.some.inj hold).symm
      · show 1001 + 1001 < uint64Limit
        decide
    have hstep : @step ℚ rationals storedOrder (requested (n + 1)) (.update ⟨[1]⟩ (.ofSize 1000)) =
        some (requested (n + 2), .flag false) := by
      rw [requested, requested, Nat.cast_succ (n + 1)]
      simp only [step, AdaptSizeCache.update, AdaptSizeCache.metadataUpdate,
        Statistics.metadataUpdate, Statistics.reconfigure, if_pos hnext]
      rfl
    exact ⟨_, .cons hrun hmeets hstep⟩

/-- The period ends with a request of the object, whose counters are merged and counted anew; then
another object is admitted and read. -/
theorem booksKept_of_runs_renewed :
    ∃ tr s, Runs (@step ℚ rationals storedOrder) (@Meets ℚ rationals storedOrder)
        (@create ℚ rationals 300) tr s ∧
      @BooksKept ℚ rationals storedOrder s ∧ s.stats.longTermMetadata.keys = [⟨[1]⟩] ∧
      s.stats.statSize = 1001 + 11 ∧
      s.getSizeForCapacity = overheadBytes + 11 + 9 + 3 * 17 + 2 * 8 := by
  obtain ⟨tr, hrun⟩ := exists_requested (n := 499998) (by decide)
  have hexec : (exec (@step ℚ rationals storedOrder) (@Meets ℚ rationals storedOrder)
      (requested 499999) [.update ⟨[1]⟩ (.ofSize 1000), .admitObject ⟨[2]⟩ (.ofSize 10),
        .lookup ⟨[2]⟩]).any
      (fun s => decide (s.stats.longTermMetadata.keys = [⟨[1]⟩] ∧ s.stats.statSize = 1001 + 11 ∧
        s.getSizeForCapacity = overheadBytes + 11 + 9 + 3 * 17 + 2 * 8)) = true := by
    decide +kernel
  obtain ⟨tr', s, hrest, -, hs⟩ := exists_runs_of_any hexec
  exact ⟨_, s, hrun.trans hrest,
    @booksKept_of_runs ℚ rationals storedOrder 300 s _ (hrun.trans hrest), of_decide_eq_true hs⟩

/-- A key of one byte is requested with a value of 10 bytes and then with one of 20 bytes. The
object that is tracked has 21 bytes, `statSize` is still 11. -/
theorem statSize_stale :
    ∃ tr s, Runs (@step ℚ rationals storedOrder) anyAction (@create ℚ rationals 1000) tr s ∧
      s.stats.statSize = 11 ∧ recordedSize s.stats ⟨[1]⟩ = some 21 ∧
      trackedBytes s.stats = 21 := by
  have hexec : (exec (@step ℚ rationals storedOrder) anyAction (@create ℚ rationals 1000)
      [.update ⟨[1]⟩ (.ofSize 10), .update ⟨[1]⟩ (.ofSize 20)]).any
      (fun s => decide (s.stats.statSize = 11) &&
        decide (recordedSize s.stats ⟨[1]⟩ = some 21) &&
        decide (trackedBytes s.stats = 21)) = true := by
    decide +kernel
  obtain ⟨tr, s, hrun, -, hs⟩ := exists_runs_of_any hexec
  rw [Bool.and_eq_true, Bool.and_eq_true, decide_eq_true_eq, decide_eq_true_eq,
    decide_eq_true_eq] at hs
  exact ⟨tr, s, hrun, hs.1.1, hs.1.2, hs.2⟩

end Covered.Cache.Adaptsize
