import Covered.Placement.FoundVictims

/-!
# Victims that cover the required space

For one edge of a placement the victim tracker takes the shortest prefix of the available victims
that saves the bytes which do not fit into the free bytes of the edge. The available victims are the
tracked ones, in their order, and then those fetched victims that are not tracked. Where the tracked
victims are too small and none were fetched, the edge is noted for a victim fetch; where even the
fetched ones are too small, all of them are taken and nothing is noted, since there is no second
fetch.

Over a whole placement each victim key has as many cacheinfos as edges that evict it, as long as no
edge has fetched one key twice. Then `calcEvictionCost` returns a cost
(`calcEvictionCost_of_known`).
-/

set_option autoImplicit false

namespace Covered.Placement

open Common Cooperation Lib Lib.Checked List
open Popularity (Edgeset)
open Simulator Victim

/-! ## What an edge takes -/

/-- The bytes that do not fit into the free bytes of the edge. -/
def missingBytes (metadata : EdgelevelVictimMetadata) (objectSize : Nat) : Nat :=
  objectSize - metadata.cacheMarginBytes

/-- The bytes of victims. -/
def victimBytes (victims : List VictimCacheinfo) : Nat :=
  (victims.map VictimCacheinfo.objectSize).sum

/-- The fetched victims that are not tracked. -/
def untracked (metadata : EdgelevelVictimMetadata) (extra : List VictimCacheinfo) :
    List VictimCacheinfo :=
  extra.filter fun v => v.key ∉ metadata.victimCacheinfos.map VictimCacheinfo.key

/-- The tracked victims, and then the fetched ones that are not tracked. -/
def availableVictims (metadata : EdgelevelVictimMetadata) (extra : List VictimCacheinfo) :
    List VictimCacheinfo :=
  metadata.victimCacheinfos ++ untracked metadata extra

/-- The tracked victims that are taken. -/
def takenSynced (metadata : EdgelevelVictimMetadata) (objectSize : Nat) : List VictimCacheinfo :=
  shortestPrefix VictimCacheinfo.objectSize (missingBytes metadata objectSize)
    metadata.victimCacheinfos

/-- The fetched victims that are taken. -/
def takenFetched (metadata : EdgelevelVictimMetadata) (objectSize : Nat)
    (extra : List VictimCacheinfo) : List VictimCacheinfo :=
  shortestPrefix VictimCacheinfo.objectSize
    (missingBytes metadata objectSize - victimBytes metadata.victimCacheinfos)
    (untracked metadata extra)

/-- The tracked victims are too small. -/
def Lacks (metadata : EdgelevelVictimMetadata) (objectSize : Nat) : Prop :=
  victimBytes metadata.victimCacheinfos < missingBytes metadata objectSize

instance (metadata : EdgelevelVictimMetadata) (objectSize : Nat) :
    Decidable (Lacks metadata objectSize) :=
  inferInstanceAs (Decidable (_ < _))

/-- What one edge adds to the victims of a placement. -/
def addTaken (metadata : EdgelevelVictimMetadata) (edgeIdx objectSize : Nat)
    (extra : List VictimCacheinfo) (p : PlacementVictims) : PlacementVictims :=
  let q := (takenFetched metadata objectSize extra).foldl (PlacementVictims.addFetched edgeIdx)
    ((takenSynced metadata objectSize).foldl (PlacementVictims.addSynced edgeIdx) p)
  { q with
    victimFetchEdgeset :=
      if Lacks metadata objectSize ∧ extra = [] then insert edgeIdx q.victimFetchEdgeset
      else q.victimFetchEdgeset }

section Edge

variable {metadata : EdgelevelVictimMetadata} {edgeIdx objectSize : Nat}
variable {extra : List VictimCacheinfo} {p p' : PlacementVictims} {victims : List EdgeVictim}

theorem takenFetched_of_not_lacks (h : ¬ Lacks metadata objectSize) :
    takenFetched metadata objectSize extra = [] := by
  have hzero : missingBytes metadata objectSize - victimBytes metadata.victimCacheinfos = 0 :=
    Nat.sub_eq_zero_of_le (Nat.not_lt.1 h)
  rw [takenFetched, hzero, shortestPrefix_zero]

/-- Both together are the shortest prefix of the available victims. -/
theorem takenSynced_append_takenFetched :
    takenSynced metadata objectSize ++ takenFetched metadata objectSize extra =
      shortestPrefix VictimCacheinfo.objectSize (missingBytes metadata objectSize)
        (availableVictims metadata extra) := by
  by_cases hlacks : Lacks metadata objectSize
  · rw [takenSynced, shortestPrefix_of_sum_lt hlacks, availableVictims,
      shortestPrefix_append _ hlacks]
    rfl
  · rw [takenFetched_of_not_lacks hlacks, append_nil, takenSynced, availableVictims]
    exact (shortestPrefix_of_isPrefix (prefix_append _ _) (Nat.not_lt.1 hlacks)).symm

/-- The fetched victims that were not synchronized are those behind the synchronized ones. -/
theorem filter_notMem_synced {synced fetched : List VictimCacheinfo} (hinitial : synced <+: fetched)
    (hdistinct : (fetched.map VictimCacheinfo.key).Nodup) :
    ∃ rest, fetched = synced ++ rest ∧
      (fetched.filter fun v => v.key ∉ synced.map VictimCacheinfo.key) = rest := by
  obtain ⟨rest, rfl⟩ := hinitial
  refine ⟨rest, rfl, ?_⟩
  rw [map_append] at hdistinct
  have hnone : (synced.filter fun v => v.key ∉ synced.map VictimCacheinfo.key) = [] := by
    apply filter_eq_nil_iff.2
    intro v hv hnot
    exact of_decide_eq_true hnot (mem_map_of_mem hv)
  have hall : (rest.filter fun v => v.key ∉ synced.map VictimCacheinfo.key) = rest := by
    apply filter_eq_self.2
    intro v hv
    apply decide_eq_true
    intro hmem
    exact (disjoint_of_nodup_append hdistinct) hmem (mem_map_of_mem hv)
  rw [filter_append, hnone, hall, nil_append]

variable {l order : List VictimCacheinfo} {required savedBytes : Nat}

/-- Of two prefixes of a list, the smaller one is a prefix of the larger one. -/
theorem prefix_of_sum_lt {l' : List VictimCacheinfo} (hl : l <+: order) (hl' : l' <+: order)
    (hlt : (l.map VictimCacheinfo.objectSize).sum < (l'.map VictimCacheinfo.objectSize).sum) :
    l <+: l' := by
  rcases prefix_or_prefix_of_prefix hl hl' with h | h
  · exact h
  · obtain ⟨rest, rfl⟩ := h
    rw [map_append, sum_append] at hlt
    omega

/-- Where the tracked victims agree with the first ones of an order, and those that were fetched for
what they lack are the first ones too, the victims that are taken agree with the shortest prefix of
the order. -/
theorem forall₂_taken {R : VictimCacheinfo → VictimCacheinfo → Prop}
    (hkey : ∀ v v', R v v' → v.key = v'.key) (hsize : ∀ v v', R v v' → v.objectSize = v'.objectSize)
    (hrefl : ∀ v, R v v) (hdistinct : (order.map VictimCacheinfo.key).Nodup) (hl : l <+: order)
    (htracked : List.Forall₂ R metadata.victimCacheinfos l)
    (hextra : Lacks metadata objectSize →
      extra <+: order ∧ missingBytes metadata objectSize ≤ victimBytes extra) :
    List.Forall₂ R (takenSynced metadata objectSize ++ takenFetched metadata objectSize extra)
      (shortestPrefix VictimCacheinfo.objectSize (missingBytes metadata objectSize) order) := by
  have hkeys := map_eq_of_forall₂ hkey htracked
  have hbytes : victimBytes metadata.victimCacheinfos = victimBytes l :=
    congrArg sum (map_eq_of_forall₂ hsize htracked)
  rw [takenSynced_append_takenFetched]
  by_cases hlacks : Lacks metadata objectSize
  · -- all tracked victims are taken, and the fetched ones go on where they end
    obtain ⟨hfetched, hcover⟩ := hextra hlacks
    rw [Lacks, hbytes] at hlacks
    obtain ⟨rest, rfl, hfilter⟩ := filter_notMem_synced
      (prefix_of_sum_lt hl hfetched (hlacks.trans_le hcover))
      (hdistinct.sublist (hfetched.sublist.map _))
    rw [shortestPrefix_of_isPrefix hfetched hcover, availableVictims, untracked, hkeys, hfilter]
    exact forall₂_shortestPrefix hsize
      (rel_append htracked (forall₂_same.2 fun v _ => hrefl v))
  · -- the tracked victims suffice
    have hcover := Nat.not_lt.1 hlacks
    rw [availableVictims, shortestPrefix_of_isPrefix (prefix_append _ _) hcover]
    rw [hbytes] at hcover
    rw [shortestPrefix_of_isPrefix hl hcover]
    exact forall₂_shortestPrefix hsize htracked

/-- A loop over the fetched victims that ends has taken those that were not synchronized. -/
theorem saveBytes_of_saveExtraBytes {synced : List Key} {r : PlacementVictims × Nat}
    (h : saveExtraBytes required edgeIdx synced p savedBytes l = some r) :
    saveBytes (PlacementVictims.addFetched edgeIdx) required p savedBytes
      (l.filter fun v => v.key ∉ synced) = some r := by
  induction l generalizing p savedBytes with
  | nil => exact h
  | cons v rest ih =>
    rw [saveExtraBytes, require_bind_iff] at h
    obtain ⟨hv, h⟩ := h
    rw [filter_cons]
    by_cases hmem : v.key ∈ synced
    · rw [if_pos hmem] at h
      rw [decide_eq_false (not_not_intro hmem), if_neg Bool.false_ne_true]
      exact ih h
    · rw [if_neg hmem] at h
      rw [if_pos (decide_eq_true hmem), saveBytes, require_bind hv]
      simp only [bind_eq_some_iff] at h ⊢
      obtain ⟨size, hsize, h⟩ := h
      refine ⟨size, hsize, ?_⟩
      split at h
      · next hsaved => rwa [if_pos hsaved]
      · next hsaved =>
        rw [if_neg hsaved]
        exact ih h

theorem victimBytes_takenSynced_lt_iff :
    victimBytes (takenSynced metadata objectSize) < missingBytes metadata objectSize ↔
      Lacks metadata objectSize := by
  rw [← not_le, victimBytes, takenSynced, le_sum_shortestPrefix_iff, Lacks, victimBytes, not_le]

/-- The synchronized keys of the edge, once its tracked victims were taken. -/
theorem syncedKeys_takenSynced (hfound : Found p victims) (hfresh : syncedKeys p edgeIdx = []) :
    syncedKeys ((takenSynced metadata objectSize).foldl (PlacementVictims.addSynced edgeIdx) p)
      edgeIdx = (takenSynced metadata objectSize).map VictimCacheinfo.key := by
  obtain ⟨-, -, hkeys⟩ := found_addSynced edgeIdx (takenSynced metadata objectSize) hfound
  rw [hkeys, if_pos rfl, hfresh, nil_append]

/-- The victims that an edge adds, in terms of what is available. -/
theorem eq_addTaken (hfound : Found p victims) (hfresh : syncedKeys p edgeIdx = [])
    (h : metadata.findVictimsForObjectSize edgeIdx objectSize p extra = some p') :
    p' = addTaken metadata edgeIdx objectSize extra p := by
  rw [EdgelevelVictimMetadata.findVictimsForObjectSize] at h
  by_cases hmargin : objectSize > metadata.cacheMarginBytes
  · have hpos : 0 < missingBytes metadata objectSize := Nat.sub_pos_of_lt hmargin
    rw [if_pos hmargin] at h
    simp only [bind_eq_some_iff, Prod.exists] at h
    obtain ⟨q, savedBytes, hsave, h⟩ := h
    obtain ⟨-, rfl, rfl⟩ := (saveBytes_eq_some_iff hpos).1 hsave
    rw [Nat.sub_zero, Nat.zero_add] at h
    change (if victimBytes (takenSynced metadata objectSize) < missingBytes metadata objectSize
      then EdgelevelVictimMetadata.findExtraVictims edgeIdx (missingBytes metadata objectSize) extra
        ((takenSynced metadata objectSize).foldl (PlacementVictims.addSynced edgeIdx) p)
        (victimBytes (takenSynced metadata objectSize)) else some _) = some p' at h
    rw [if_congr victimBytes_takenSynced_lt_iff rfl rfl] at h
    by_cases hlacks : Lacks metadata objectSize
    · rw [if_pos hlacks, EdgelevelVictimMetadata.findExtraVictims] at h
      have hall : takenSynced metadata objectSize = metadata.victimCacheinfos :=
        shortestPrefix_of_sum_lt hlacks
      by_cases hextra : extra.length > 0
      · -- the fetched victims follow the tracked ones
        rw [if_pos hextra] at h
        simp only [bind_eq_some_iff, Prod.exists, pure_eq_some_iff] at h
        obtain ⟨q, savedBytes, hsave, rfl⟩ := h
        have hsave' := saveBytes_of_saveExtraBytes hsave
        rw [show (valueOf edgeIdx _).getD [] = _ from syncedKeys_takenSynced hfound hfresh, hall]
          at hsave'
        obtain ⟨-, rfl, -⟩ := (saveBytes_eq_some_iff hlacks).1 hsave'
        rw [addTaken, if_neg fun hnone => length_pos_iff.1 hextra hnone.2, hall]
        rfl
      · have hnil : extra = [] := length_eq_zero_iff.1 (Nat.eq_zero_of_not_pos hextra)
        rw [if_neg hextra, require_bind_iff, pure_eq_some_iff] at h
        rw [addTaken, if_pos ⟨hlacks, hnil⟩, ← h.2, hnil]
        rfl
    · rw [if_neg hlacks, Option.some.injEq] at h
      rw [addTaken, if_neg fun hnone => hlacks hnone.1, takenFetched_of_not_lacks hlacks, ← h]
      rfl
  · have hzero : missingBytes metadata objectSize = 0 :=
      Nat.sub_eq_zero_of_le (Nat.not_lt.1 hmargin)
    have hnot : ¬ Lacks metadata objectSize := by
      rw [Lacks, hzero]
      exact Nat.not_lt_zero _
    rw [if_neg hmargin, Option.some.injEq] at h
    rw [addTaken, if_neg fun hnone => hnot hnone.1, takenFetched_of_not_lacks hnot, takenSynced,
      hzero, shortestPrefix_zero]
    exact h.symm

/-- Tracked victims are complete and have distinct keys. -/
structure Tracked (metadata : EdgelevelVictimMetadata) : Prop where
  complete : ∀ v ∈ metadata.victimCacheinfos, v.isComplete = true
  distinct : (metadata.victimCacheinfos.map VictimCacheinfo.key).Nodup

/-- Complete victims do not make the loop fail. -/
theorem exists_saveBytes {σ : Type} (add : σ → VictimCacheinfo → σ) (found : σ)
    (hsaved : savedBytes < required) (hcomplete : ∀ v ∈ l, v.isComplete = true) :
    ∃ r, saveBytes add required found savedBytes l = some r :=
  ⟨_, (saveBytes_eq_some_iff hsaved).2
    ⟨fun v hv => hcomplete v (shortestPrefix_isPrefix.subset hv), rfl, rfl⟩⟩

theorem findVictimsForObjectSize_eq (htracked : Tracked metadata)
    (hextra : Lacks metadata objectSize → ∀ v ∈ extra, v.isComplete = true)
    (hfound : Found p victims) (hfresh : syncedKeys p edgeIdx = [])
    (hfetch : edgeIdx ∉ p.victimFetchEdgeset) :
    metadata.findVictimsForObjectSize edgeIdx objectSize p extra =
      some (addTaken metadata edgeIdx objectSize extra p) := by
  suffices hsome :
      ∃ p', metadata.findVictimsForObjectSize edgeIdx objectSize p extra = some p' by
    obtain ⟨p', hp'⟩ := hsome
    rw [hp', eq_addTaken hfound hfresh hp']
  rw [EdgelevelVictimMetadata.findVictimsForObjectSize]
  by_cases hmargin : objectSize > metadata.cacheMarginBytes
  · have hpos : 0 < objectSize - metadata.cacheMarginBytes := Nat.sub_pos_of_lt hmargin
    obtain ⟨⟨q, savedBytes⟩, hsave⟩ := exists_saveBytes
      (PlacementVictims.addSynced edgeIdx) p hpos htracked.complete
    rw [if_pos hmargin]
    simp only [hsave, some_bind]
    split
    · next hshort =>
      have hsaved := ((saveBytes_eq_some_iff hpos).1 hsave).2.2
      rw [Nat.sub_zero, Nat.zero_add] at hsaved
      have hlacks : Lacks metadata objectSize :=
        victimBytes_takenSynced_lt_iff.1 (hsaved.trans_lt hshort)
      rw [EdgelevelVictimMetadata.findExtraVictims]
      split
      · obtain ⟨r, hr⟩ := exists_saveBytes (PlacementVictims.addFetched edgeIdx) q
          hshort fun v (hv : v ∈ extra.filter fun v =>
            v.key ∉ (valueOf edgeIdx q.peredgeSyncedVictimset).getD []) =>
              hextra hlacks v (mem_filter.1 hv).1
        rw [← saveExtraBytes_eq (hextra hlacks)] at hr
        simp only [hr]
        exact ⟨r.1, rfl⟩
      · have hq : q.victimFetchEdgeset = p.victimFetchEdgeset := by
          obtain ⟨-, rfl, -⟩ := (saveBytes_eq_some_iff hpos).1 hsave
          exact (found_addSynced edgeIdx _ hfound).2.1
        rw [require_bind (hq ▸ hfetch)]
        exact ⟨_, rfl⟩
    · exact ⟨q, rfl⟩
  · rw [if_neg hmargin]
    exact ⟨p, rfl⟩

end Edge

/-! ## The edges of a placement -/

section Placement

variable {t : VictimTracker} {objectSize : Nat} {edges : List Nat}
variable {extra : List (Nat × List VictimCacheinfo)} {p p' : PlacementVictims}
variable {victims : List EdgeVictim}

/-- The victims fetched from an edge. -/
abbrev extraOf (extra : List (Nat × List VictimCacheinfo)) (edgeIdx : Nat) :
    List VictimCacheinfo :=
  (valueOf edgeIdx extra).getD []

/-- The tracked victims that an edge of the placement evicts. -/
def syncedOf (t : VictimTracker) (objectSize edgeIdx : Nat) : List VictimCacheinfo :=
  match t.peredgeVictimMetadata edgeIdx with
  | none => []
  | some metadata => takenSynced metadata objectSize

/-- The fetched victims that an edge of the placement evicts. -/
def fetchedOf (t : VictimTracker) (objectSize : Nat) (extra : List (Nat × List VictimCacheinfo))
    (edgeIdx : Nat) : List VictimCacheinfo :=
  match t.peredgeVictimMetadata edgeIdx with
  | none => []
  | some metadata => takenFetched metadata objectSize (extraOf extra edgeIdx)

/-- The tracked victims of an edge are too small, and none were fetched. -/
def needsFetch (t : VictimTracker) (objectSize : Nat) (extra : List (Nat × List VictimCacheinfo))
    (edgeIdx : Nat) : Bool :=
  match t.peredgeVictimMetadata edgeIdx with
  | none => false
  | some metadata => decide (Lacks metadata objectSize ∧ extraOf extra edgeIdx = [])

/-- All victims of a placement with the edges that evict them. -/
def evictedVictims (t : VictimTracker) (objectSize : Nat)
    (extra : List (Nat × List VictimCacheinfo)) (edges : List Nat) : List EdgeVictim :=
  edges.flatMap fun edgeIdx =>
    (syncedOf t objectSize edgeIdx ++ fetchedOf t objectSize extra edgeIdx).map (·, edgeIdx)

/-- What the loop over the edges has found. -/
structure Collected (t : VictimTracker) (objectSize : Nat)
    (extra : List (Nat × List VictimCacheinfo)) (edges : List Nat) (p : PlacementVictims) :
    Prop where
  found : Found p (evictedVictims t objectSize extra edges)
  synced : ∀ edgeIdx, syncedKeys p edgeIdx =
    if edgeIdx ∈ edges then (syncedOf t objectSize edgeIdx).map VictimCacheinfo.key else []
  fetched : p.peredgeFetchedVictimset = [] ↔
    ∀ edgeIdx ∈ edges, fetchedOf t objectSize extra edgeIdx = []
  fetch : ∀ edgeIdx, edgeIdx ∈ p.victimFetchEdgeset ↔
    edgeIdx ∈ edges ∧ needsFetch t objectSize extra edgeIdx = true

theorem found_nil : Found {} [] := ⟨rfl, rfl⟩

theorem collected_nil : Collected t objectSize extra [] {} where
  found := found_nil
  synced _ := rfl
  fetched := iff_of_true rfl fun _ h => nomatch h
  fetch _ := iff_of_false (Finset.notMem_empty _) fun h => nomatch h.1

theorem evictedVictims_append_singleton (edgeIdx : Nat) :
    evictedVictims t objectSize extra (edges ++ [edgeIdx]) =
      evictedVictims t objectSize extra edges ++
        (syncedOf t objectSize edgeIdx ++ fetchedOf t objectSize extra edgeIdx).map
          (·, edgeIdx) := by
  rw [evictedVictims, flatMap_append, flatMap_singleton]
  rfl

/-- An added fetched victim is kept. -/
theorem peredgeFetchedVictimset_foldl_addFetched (edgeIdx : Nat) (l : List VictimCacheinfo) :
    (l.foldl (PlacementVictims.addFetched edgeIdx) p).peredgeFetchedVictimset = [] ↔
      p.peredgeFetchedVictimset = [] ∧ l = [] := by
  induction l generalizing p with
  | nil => exact (and_iff_left rfl).symm
  | cons v rest ih =>
    rw [foldl_cons, ih]
    refine iff_of_false ?_ fun h => cons_ne_nil v rest h.2
    rintro ⟨h, -⟩
    have hvalue : valueOf edgeIdx (p.addFetched edgeIdx v).peredgeFetchedVictimset ≠ none := by
      rw [PlacementVictims.addFetched, valueOf_upsert, if_pos rfl]
      exact Option.some_ne_none _
    rw [h] at hvalue
    exact hvalue rfl

theorem peredgeFetchedVictimset_foldl_addSynced (edgeIdx : Nat) (l : List VictimCacheinfo) :
    (l.foldl (PlacementVictims.addSynced edgeIdx) p).peredgeFetchedVictimset =
      p.peredgeFetchedVictimset := by
  induction l generalizing p with
  | nil => rfl
  | cons v rest ih => exact ih

variable {edgeIdx : Nat}

/-- The victims of an edge are added to those collected before. -/
theorem Collected.addTaken {metadata : EdgelevelVictimMetadata}
    (h : Collected t objectSize extra edges p) (hnew : edgeIdx ∉ edges)
    (hmetadata : t.peredgeVictimMetadata edgeIdx = some metadata) :
    Collected t objectSize extra (edges ++ [edgeIdx])
      (addTaken metadata edgeIdx objectSize (extraOf extra edgeIdx) p) := by
  have hsyncedOf : syncedOf t objectSize edgeIdx = takenSynced metadata objectSize := by
    rw [syncedOf, hmetadata]
  have hfetchedOf : fetchedOf t objectSize extra edgeIdx =
      takenFetched metadata objectSize (extraOf extra edgeIdx) := by
    rw [fetchedOf, hmetadata]
  have hneeds : needsFetch t objectSize extra edgeIdx =
      decide (Lacks metadata objectSize ∧ extraOf extra edgeIdx = []) := by
    rw [needsFetch, hmetadata]
  obtain ⟨hfound, hfetch, hkeys⟩ := found_addSynced edgeIdx (syncedOf t objectSize edgeIdx) h.found
  obtain ⟨hfound', hfetch', hkeys'⟩ := found_addFetched edgeIdx
    (fetchedOf t objectSize extra edgeIdx) hfound
  rw [append_assoc, ← map_append, ← evictedVictims_append_singleton] at hfound'
  have hfetched := peredgeFetchedVictimset_foldl_addFetched (p := (syncedOf t objectSize
    edgeIdx).foldl (PlacementVictims.addSynced edgeIdx) p) edgeIdx
    (fetchedOf t objectSize extra edgeIdx)
  rw [peredgeFetchedVictimset_foldl_addSynced, h.fetched] at hfetched
  rw [Placement.addTaken, ← hsyncedOf, ← hfetchedOf]
  refine ⟨⟨hfound'.edgeset, hfound'.cacheinfos⟩, fun i => ?_, hfetched.trans ?_, fun i => ?_⟩
  · have hi := hkeys' i
    rw [hkeys, h.synced] at hi
    refine hi.trans ?_
    by_cases hedge : i = edgeIdx
    · rw [hedge, if_neg hnew, if_pos rfl, if_pos mem_concat_self, nil_append]
    · have hmem : i ∈ edges ++ [edgeIdx] ↔ i ∈ edges := by
        rw [mem_append, mem_singleton]
        exact or_iff_left hedge
      rw [if_neg hedge, append_nil, if_congr hmem rfl rfl]
  · rw [forall_mem_append, forall_mem_singleton]
  · have hmem : i ∈ (((fetchedOf t objectSize extra edgeIdx).foldl
        (PlacementVictims.addFetched edgeIdx) ((syncedOf t objectSize edgeIdx).foldl
          (PlacementVictims.addSynced edgeIdx) p)).victimFetchEdgeset) ↔
        i ∈ edges ∧ needsFetch t objectSize extra i = true := by
      rw [hfetch', hfetch, h.fetch]
    rw [mem_append, mem_singleton, or_and_right, ← hmem]
    show i ∈ (if Lacks metadata objectSize ∧ extraOf extra edgeIdx = [] then _ else _) ↔ _
    split
    · next hneed =>
      rw [Finset.mem_insert, or_comm]
      refine or_congr_right (iff_self_and.2 ?_)
      rintro rfl
      rw [hneeds, decide_eq_true_iff]
      exact hneed
    · next hneed =>
      refine (or_iff_left ?_).symm
      rintro ⟨rfl, hneed'⟩
      rw [hneeds, decide_eq_true_iff] at hneed'
      exact hneed hneed'

/-- An edge that was never heard from evicts nothing. -/
theorem Collected.skip (h : Collected t objectSize extra edges p) (hnew : edgeIdx ∉ edges)
    (hmetadata : t.peredgeVictimMetadata edgeIdx = none) :
    Collected t objectSize extra (edges ++ [edgeIdx]) p := by
  have hsyncedOf : syncedOf t objectSize edgeIdx = [] := by
    rw [syncedOf, hmetadata]
  have hfetchedOf : fetchedOf t objectSize extra edgeIdx = [] := by
    rw [fetchedOf, hmetadata]
  have hneeds : needsFetch t objectSize extra edgeIdx = false := by
    rw [needsFetch, hmetadata]
  refine ⟨?_, fun i => ?_, ?_, fun i => ?_⟩
  · rw [evictedVictims_append_singleton, hsyncedOf, hfetchedOf, append_nil, map_nil,
      append_nil]
    exact h.found
  · rw [h.synced]
    by_cases hedge : i = edgeIdx
    · rw [hedge, if_neg hnew, if_pos mem_concat_self, hsyncedOf, map_nil]
    · have hmem : i ∈ edges ++ [edgeIdx] ↔ i ∈ edges := by
        rw [mem_append, mem_singleton]
        exact or_iff_left hedge
      rw [if_congr hmem rfl rfl]
  · rw [h.fetched, forall_mem_append, forall_mem_singleton]
    exact (and_iff_left hfetchedOf).symm
  · rw [h.fetch, mem_append, mem_singleton, or_and_right]
    refine (or_iff_left ?_).symm
    rintro ⟨rfl, hneed⟩
    rw [hneeds] at hneed
    exact Bool.false_ne_true hneed

theorem Collected.findVictimsForEdge (h : Collected t objectSize extra edges p)
    (hnew : edgeIdx ∉ edges) (hfind : t.findVictimsForEdge objectSize extra p edgeIdx = some p') :
    Collected t objectSize extra (edges ++ [edgeIdx]) p' := by
  rw [VictimTracker.findVictimsForEdge] at hfind
  cases hmetadata : t.peredgeVictimMetadata edgeIdx with
  | none =>
    rw [hmetadata, Option.some.injEq] at hfind
    exact hfind ▸ h.skip hnew hmetadata
  | some metadata =>
    rw [hmetadata] at hfind
    have hfresh : syncedKeys p edgeIdx = [] := by rw [h.synced, if_neg hnew]
    rw [eq_addTaken h.found hfresh hfind]
    exact h.addTaken hnew hmetadata

theorem notMem_front {front rest : List Nat} (h : (front ++ edgeIdx :: rest).Nodup) :
    edgeIdx ∉ front := by
  have hnot := (nodup_cons.1 (nodup_middle.1 h)).1
  exact fun hmem => hnot (mem_append_left rest hmem)

/-- The whole loop over the edges. -/
theorem collected_of_foldlM (hnodup : edges.Nodup)
    (h : edges.foldlM (t.findVictimsForEdge objectSize extra) {} = some p) :
    Collected t objectSize extra edges p := by
  have key : ∀ (rest front : List Nat) (q : PlacementVictims), (front ++ rest).Nodup →
      Collected t objectSize extra front q →
      rest.foldlM (t.findVictimsForEdge objectSize extra) q = some p →
      Collected t objectSize extra (front ++ rest) p := by
    intro rest
    induction rest with
    | nil =>
      intro front q _ hq hfold
      rw [foldlM_nil, pure_eq_some_iff] at hfold
      rw [append_nil, ← hfold]
      exact hq
    | cons edgeIdx rest ih =>
      intro front q hnodup hq hfold
      rw [foldlM_cons, bind_eq_some_iff] at hfold
      obtain ⟨q', hfind, hrest⟩ := hfold
      have hnew := notMem_front hnodup
      rw [append_cons] at hnodup ⊢
      exact ih (front ++ [edgeIdx]) q' hnodup (hq.findVictimsForEdge hnew hfind) hrest
  exact key edges [] {} hnodup collected_nil h

/-- What the tracker promises about its victims and its beacon about the fetched ones. -/
structure KnownVictims (t : VictimTracker) (extra : List (Nat × List VictimCacheinfo)) : Prop where
  tracked : ∀ edgeIdx metadata, t.peredgeVictimMetadata edgeIdx = some metadata → Tracked metadata
  complete : ∀ edgeIdx, ∀ v ∈ extraOf extra edgeIdx, v.isComplete = true
  distinct : ∀ edgeIdx, ((extraOf extra edgeIdx).map VictimCacheinfo.key).Nodup

/-- What the loop over the edges needs: the victims that it looks at are complete. -/
def Readable (t : VictimTracker) (objectSize : Nat) (extra : List (Nat × List VictimCacheinfo))
    (edgeIdx : Nat) : Prop :=
  ∀ metadata, t.peredgeVictimMetadata edgeIdx = some metadata → Tracked metadata ∧
    (Lacks metadata objectSize → ∀ v ∈ extraOf extra edgeIdx, v.isComplete = true)

theorem KnownVictims.readable (h : KnownVictims t extra) (objectSize edgeIdx : Nat) :
    Readable t objectSize extra edgeIdx := fun metadata hmetadata =>
  ⟨h.tracked edgeIdx metadata hmetadata, fun _ => h.complete edgeIdx⟩

theorem exists_foldlM (hreadable : ∀ edgeIdx ∈ edges, Readable t objectSize extra edgeIdx)
    (hnodup : edges.Nodup) :
    ∃ p, edges.foldlM (t.findVictimsForEdge objectSize extra) {} = some p := by
  have key : ∀ (rest front : List Nat) (q : PlacementVictims),
      (∀ edgeIdx ∈ rest, Readable t objectSize extra edgeIdx) → (front ++ rest).Nodup →
      Collected t objectSize extra front q →
      ∃ p, rest.foldlM (t.findVictimsForEdge objectSize extra) q = some p := by
    intro rest
    induction rest with
    | nil => exact fun front q _ _ _ => ⟨q, rfl⟩
    | cons edgeIdx rest ih =>
      intro front q hreadable hnodup hq
      obtain ⟨hfirst, hrest⟩ := forall_mem_cons.1 hreadable
      have hnew := notMem_front hnodup
      rw [append_cons] at hnodup
      have hfind : ∃ q', t.findVictimsForEdge objectSize extra q edgeIdx = some q' := by
        rw [VictimTracker.findVictimsForEdge]
        cases hmetadata : t.peredgeVictimMetadata edgeIdx with
        | none => exact ⟨q, rfl⟩
        | some metadata =>
          obtain ⟨htracked, hcomplete⟩ := hfirst metadata hmetadata
          exact ⟨_, findVictimsForObjectSize_eq htracked hcomplete hq.found
            (by rw [hq.synced, if_neg hnew]) fun hmem => hnew ((hq.fetch edgeIdx).1 hmem).1⟩
      obtain ⟨q', hq'⟩ := hfind
      obtain ⟨p, hp⟩ := ih (front ++ [edgeIdx]) q' hrest hnodup (hq.findVictimsForEdge hnew hq')
      rw [foldlM_cons, hq']
      exact ⟨p, hp⟩
  exact key edges [] {} hreadable hnodup collected_nil

theorem exists_findVictimsForPlacement
    (hreadable : ∀ edgeIdx ∈ edges, Readable t objectSize extra edgeIdx) (hnodup : edges.Nodup) :
    ∃ p, t.findVictimsForPlacement objectSize edges extra = some p ∧
      Found p (evictedVictims t objectSize extra edges) ∧
      (extra.length > 0 → p.victimFetchEdgeset = ∅) := by
  obtain ⟨q, hq⟩ := exists_foldlM hreadable hnodup
  have hcollected := collected_of_foldlM hnodup hq
  rw [VictimTracker.findVictimsForPlacement, hq, some_bind]
  split
  · exact ⟨_, rfl, ⟨hcollected.found.edgeset, hcollected.found.cacheinfos⟩, fun _ => rfl⟩
  · next hextra => exact ⟨q, rfl, hcollected.found, fun h => absurd h hextra⟩

/-- No fetched victim is taken iff the tracked victims suffice or all fetched ones are tracked. -/
theorem fetchedOf_eq_nil_iff : fetchedOf t objectSize extra edgeIdx = [] ↔
    ∀ metadata, t.peredgeVictimMetadata edgeIdx = some metadata → Lacks metadata objectSize →
      ∀ v ∈ extraOf extra edgeIdx, v.key ∈ metadata.victimCacheinfos.map VictimCacheinfo.key := by
  rw [fetchedOf]
  cases hmetadata : t.peredgeVictimMetadata edgeIdx with
  | none => exact iff_of_true rfl fun _ h => nomatch h
  | some metadata =>
    simp only [Option.some.injEq, forall_eq', takenFetched, shortestPrefix_eq_nil_iff, untracked,
      filter_eq_nil_iff, decide_eq_true_eq, not_not]
    rw [Nat.sub_eq_zero_iff_le, ← not_lt, ← imp_iff_not_or]
    rfl

variable {extraDirinfos : List (Key × DirinfoSet)}

/-- What was found for a placement whose cost was calculated. -/
theorem collected_of_calcEvictionCost {r : Rounding} {w : Cache.WeightInfo} {cost : DeltaReward}
    (hnodup : edges.Nodup)
    (h : t.calcEvictionCost r w objectSize edges extra extraDirinfos = some (cost, p)) :
    ∃ q, Collected t objectSize extra edges q ∧
      p = { q with
        victimFetchEdgeset := if extra.length > 0 then ∅ else q.victimFetchEdgeset } := by
  simp only [VictimTracker.calcEvictionCost, VictimTracker.findVictimsForPlacement,
    bind_eq_some_iff, pure_eq_some_iff, Prod.mk.injEq] at h
  obtain ⟨_, ⟨q, hq, hp⟩, -, -, costs, -, -, rfl⟩ := h
  refine ⟨q, collected_of_foldlM hnodup hq, ?_⟩
  split at hp
  · next hextra =>
    rw [if_pos hextra]
    exact (Option.some.inj hp).symm
  · next hextra =>
    rw [if_neg hextra]
    exact (Option.some.inj hp).symm

/-! ### One cacheinfo for each edge that evicts a key -/

/-- An edge takes victims with distinct keys. -/
theorem nodup_taken (hknown : KnownVictims t extra) (objectSize edgeIdx : Nat) :
    ((syncedOf t objectSize edgeIdx ++ fetchedOf t objectSize extra edgeIdx).map
      VictimCacheinfo.key).Nodup := by
  rw [syncedOf, fetchedOf]
  cases hmetadata : t.peredgeVictimMetadata edgeIdx with
  | none => exact nodup_nil
  | some metadata =>
    show ((takenSynced metadata objectSize ++ takenFetched metadata objectSize
      (extraOf extra edgeIdx)).map VictimCacheinfo.key).Nodup
    rw [takenSynced_append_takenFetched]
    have havailable : ((availableVictims metadata (extraOf extra edgeIdx)).map
        VictimCacheinfo.key).Nodup := by
      rw [availableVictims, map_append]
      refine List.Nodup.append (hknown.tracked edgeIdx metadata hmetadata).distinct
        ((hknown.distinct edgeIdx).sublist (filter_sublist.map _)) ?_
      intro key hkey hfetched
      obtain ⟨v, hv, rfl⟩ := mem_map.1 hfetched
      exact of_decide_eq_true (mem_filter.1 hv).2 hkey
    exact havailable.sublist (shortestPrefix_isPrefix.sublist.map _)

theorem Readable.isComplete_of_mem (h : Readable t objectSize extra edgeIdx) {v : VictimCacheinfo}
    (hv : v ∈ syncedOf t objectSize edgeIdx ++ fetchedOf t objectSize extra edgeIdx) :
    v.isComplete = true := by
  rw [syncedOf, fetchedOf] at hv
  cases hmetadata : t.peredgeVictimMetadata edgeIdx with
  | none =>
    rw [hmetadata] at hv
    cases hv
  | some metadata =>
    rw [hmetadata] at hv
    obtain ⟨htracked, hextra⟩ := h metadata hmetadata
    rcases mem_append.1 hv with hv | hv
    · exact htracked.complete v (shortestPrefix_isPrefix.subset hv)
    · by_cases hlacks : Lacks metadata objectSize
      · exact hextra hlacks v (mem_filter.1 (shortestPrefix_isPrefix.subset hv)).1
      · simp only [takenFetched_of_not_lacks hlacks] at hv
        cases hv

/-- The cacheinfos of a key and the edges that evict it. -/
theorem groups_of_found (h : Found p victims) (key : Key) :
    valueOf key p.pervictimCacheinfos = (groupOf keyOf key victims).map (map Prod.fst) ∧
      valueOf key p.pervictimEdgeset = (groupOf keyOf key victims).map edgesOf := by
  rw [h.cacheinfos, h.edgeset, valueOf_map, valueOf_map, valueOf_groupList]
  exact ⟨rfl, rfl⟩

/-- There are as many cacheinfos of a key as edges that evict it iff no edge evicts it twice. -/
theorem aligned_iff (h : Found p victims) (key : Key) :
    (valueOf key p.pervictimCacheinfos).map length =
        (valueOf key p.pervictimEdgeset).map Finset.card ↔
      ((withKey keyOf key victims).map Prod.snd).Nodup := by
  obtain ⟨hinfos, hedges⟩ := groups_of_found h key
  rw [hinfos, hedges, groupOf]
  split
  · next hnil =>
    rw [hnil]
    exact iff_of_true rfl nodup_nil
  · simp only [Option.map_some, Option.some.injEq, length_map]
    rw [edgesOf, card_toFinset, ← length_map (f := Prod.snd), eq_comm]
    constructor
    · intro hlength
      exact dedup_eq_self.1 ((dedup_sublist _).eq_of_length hlength)
    · intro hnodup
      exact congrArg length (List.Nodup.dedup hnodup)

/-- The cost of a placement whose victims are complete and are found once at each edge. -/
theorem calcEvictionCost_eq (hp : t.findVictimsForPlacement objectSize edges extra = some p)
    (hfound : Found p victims) (hfetch : extra.length > 0 → p.victimFetchEdgeset = ∅)
    (hpairs : (victims.map fun a => (keyOf a, a.2)).Nodup)
    (hcomplete : ∀ a ∈ victims, a.1.isComplete = true)
    (hdirinfos : ∀ pair ∈ extraDirinfos, pair.2.isComplete = true) (r : Rounding)
    (w : Cache.WeightInfo) :
    t.calcEvictionCost r w objectSize edges extra extraDirinfos =
      some (r.sum (knownCharges t r w extraDirinfos victims), p) := by
  obtain ⟨costs, hcosts, hflatten⟩ := Option.map_eq_some_iff.1
    (hfound.mapM_calcVictimCost (t := t) (r := r) (w := w) hdirinfos hpairs hcomplete)
  rw [VictimTracker.calcEvictionCost, hp]
  simp only [Option.bind_eq_bind, Option.bind_some, hcosts, hflatten]
  rw [require_bind_of fun hextra => by rw [hfetch hextra, Finset.card_empty]]
  rfl

/-- The cost of a placement is calculated, with as many cacheinfos of each victim key as edges that
evict it. -/
theorem calcEvictionCost_of_known (hknown : KnownVictims t extra)
    (hdirinfos : ∀ pair ∈ extraDirinfos, pair.2.isComplete = true) (hnodup : edges.Nodup)
    (r : Rounding) (w : Cache.WeightInfo) :
    ∃ cost p, t.calcEvictionCost r w objectSize edges extra extraDirinfos = some (cost, p) ∧
      ∀ key, (valueOf key p.pervictimCacheinfos).map length =
        (valueOf key p.pervictimEdgeset).map Finset.card := by
  have hpairs := nodup_pairs hnodup fun edgeIdx _ => nodup_taken hknown objectSize edgeIdx
  have hcomplete : ∀ a ∈ evictedVictims t objectSize extra edges, a.1.isComplete = true := by
    intro a ha
    obtain ⟨edgeIdx, -, ha⟩ := mem_flatMap.1 ha
    obtain ⟨v, hv, rfl⟩ := mem_map.1 ha
    exact (hknown.readable objectSize edgeIdx).isComplete_of_mem hv
  obtain ⟨p, hp, hfound, hfetch⟩ := exists_findVictimsForPlacement
    (fun edgeIdx _ => hknown.readable objectSize edgeIdx) hnodup
  refine ⟨_, p, calcEvictionCost_eq hp hfound hfetch hpairs hcomplete hdirinfos r w,
    fun key => (aligned_iff hfound key).2 (nodup_edges_withKey hpairs key)⟩

end Placement

/-! ## The required space is covered -/

/-- The fetched victim keys of an edge. -/
abbrev fetchedKeys (p : PlacementVictims) (edgeIdx : Nat) : List Key :=
  (valueOf edgeIdx p.peredgeFetchedVictimset).getD []

/-- Nothing was found for an edge yet. -/
structure Fresh (p : PlacementVictims) (edgeIdx : Nat) : Prop where
  synced : syncedKeys p edgeIdx = []
  fetched : fetchedKeys p edgeIdx = []
  fetch : edgeIdx ∉ p.victimFetchEdgeset

/-- The victims that were selected at an edge: none if the object fits into the free bytes, and else
the shortest prefix of the available victims that saves the missing bytes, or all of them if they
are too small. The edge is noted for a victim fetch iff its tracked victims are too small and none
were fetched. -/
structure Selects (metadata : EdgelevelVictimMetadata) (edgeIdx objectSize : Nat)
    (extra : List VictimCacheinfo) (p : PlacementVictims) (selected : List VictimCacheinfo) :
    Prop where
  keys : syncedKeys p edgeIdx ++ fetchedKeys p edgeIdx = selected.map VictimCacheinfo.key
  initial : selected <+: availableVictims metadata extra
  fits : objectSize ≤ metadata.cacheMarginBytes → selected = []
  minimal : ∀ l, l <+: selected → l ≠ selected → victimBytes l < missingBytes metadata objectSize
  covers : missingBytes metadata objectSize ≤ victimBytes selected ∨
    selected = availableVictims metadata extra
  noted : edgeIdx ∈ p.victimFetchEdgeset ↔ Lacks metadata objectSize ∧ extra = []

section Covers

variable {metadata : EdgelevelVictimMetadata} {edgeIdx objectSize : Nat}
variable {extra : List VictimCacheinfo} {p : PlacementVictims} {victims : List EdgeVictim}

theorem fetchedKeys_foldl_addFetched (edgeIdx : Nat) (l : List VictimCacheinfo) :
    fetchedKeys (l.foldl (PlacementVictims.addFetched edgeIdx) p) edgeIdx =
      fetchedKeys p edgeIdx ++ l.map VictimCacheinfo.key := by
  induction l generalizing p with
  | nil => rw [map_nil, append_nil, foldl_nil]
  | cons v rest ih =>
    rw [foldl_cons, ih, fetchedKeys, PlacementVictims.addFetched, valueOf_upsert, if_pos rfl,
      Option.getD_some, append_assoc]
    rfl

/-- What an edge adds is a selection. -/
theorem selects_addTaken (hfound : Found p victims) (hfresh : Fresh p edgeIdx) :
    Selects metadata edgeIdx objectSize extra (addTaken metadata edgeIdx objectSize extra p)
      (shortestPrefix VictimCacheinfo.objectSize (missingBytes metadata objectSize)
        (availableVictims metadata extra)) := by
  obtain ⟨hfound', hfetch, -⟩ := found_addSynced edgeIdx (takenSynced metadata objectSize) hfound
  obtain ⟨-, hfetch', hkeys'⟩ := found_addFetched edgeIdx
    (takenFetched metadata objectSize extra) hfound'
  refine ⟨?_, shortestPrefix_isPrefix, fun hfits => ?_, fun l hl hne => ?_, ?_, ?_⟩
  · have hsynced := (hkeys' edgeIdx).trans (syncedKeys_takenSynced hfound hfresh.synced)
    have hfetched := fetchedKeys_foldl_addFetched
      (p := (takenSynced metadata objectSize).foldl (PlacementVictims.addSynced edgeIdx) p) edgeIdx
      (takenFetched metadata objectSize extra)
    rw [fetchedKeys, fetchedKeys, peredgeFetchedVictimset_foldl_addSynced,
      show (valueOf edgeIdx p.peredgeFetchedVictimset).getD [] = [] from hfresh.fetched,
      nil_append] at hfetched
    rw [← takenSynced_append_takenFetched, map_append]
    exact congrArg₂ _ hsynced hfetched
  · rw [missingBytes, Nat.sub_eq_zero_of_le hfits, shortestPrefix_zero]
  · exact sum_lt_of_isPrefix_shortestPrefix hl hne
  · by_cases hall : missingBytes metadata objectSize ≤
        ((availableVictims metadata extra).map VictimCacheinfo.objectSize).sum
    · exact .inl (le_sum_shortestPrefix_iff.2 hall)
    · exact .inr (shortestPrefix_of_sum_lt (Nat.not_le.1 hall))
  · show edgeIdx ∈ (if Lacks metadata objectSize ∧ extra = [] then _ else _) ↔ _
    rw [hfetch', hfetch]
    split
    · next hneed => exact iff_of_true (Finset.mem_insert_self _ _) hneed
    · next hneed => exact iff_of_false hfresh.fetch hneed

end Covers

/-- The selected victims cover the required space as far as there are victims, and the cost of a
placement is calculated: there are as many cacheinfos of each victim key as edges that evict it. -/
theorem selection_covers : (∀ metadata edgeIdx objectSize extra p victims, Tracked metadata →
      (∀ v ∈ extra, v.isComplete = true) → Found p victims → Fresh p edgeIdx →
      ∃ p' selected,
        metadata.findVictimsForObjectSize edgeIdx objectSize p extra = some p' ∧
        Selects metadata edgeIdx objectSize extra p' selected) ∧
    (∀ t objectSize edges extra extraDirinfos r w, KnownVictims t extra →
      (∀ pair ∈ extraDirinfos, pair.2.isComplete = true) → edges.Nodup →
      ∃ cost p, t.calcEvictionCost r w objectSize edges extra extraDirinfos = some (cost, p) ∧
        ∀ key, (valueOf key p.pervictimCacheinfos).map List.length =
          (valueOf key p.pervictimEdgeset).map Finset.card) := by
  constructor
  · intro metadata edgeIdx objectSize extra p victims htracked hextra hfound hfresh
    exact ⟨_, _,
      findVictimsForObjectSize_eq htracked (fun _ => hextra) hfound hfresh.synced hfresh.fetch,
      selects_addTaken hfound hfresh⟩
  · intro t objectSize edges extra extraDirinfos r w hknown hdirinfos hnodup
    exact calcEvictionCost_of_known hknown hdirinfos hnodup r w

/-! ## Concrete edges -/

/-- A victim of one byte. -/
def smallVictim (key : UInt8) : VictimCacheinfo := VictimCacheinfo.create ⟨[key]⟩ 1 1 0 1 0

/-- A full edge with one tracked victim. -/
def fullEdge : EdgelevelVictimMetadata := ⟨0, [smallVictim 1]⟩

/-- The tracker that knows this edge. -/
def fullEdgeTracker : VictimTracker :=
  { VictimTracker.create 0 1 1 1 with peredgeVictimMetadata := fun _ => some fullEdge }

theorem tracked_fullEdge : Tracked fullEdge := ⟨by decide +kernel, by decide +kernel⟩

theorem extraOf_singleton (edgeIdx i : Nat) (l : List VictimCacheinfo) :
    extraOf [(edgeIdx, l)] i = if edgeIdx = i then l else [] := by
  rw [extraOf, valueOf, KeyedList.find, find?_cons]
  by_cases hi : edgeIdx = i
  · rw [decide_eq_true hi, if_pos hi]
    rfl
  · rw [decide_eq_false hi, if_neg hi]
    rfl

/-- For two bytes a full edge gives up its tracked victim and the fetched one that is not tracked,
at the expected cost. -/
theorem selection_covers_fullEdge : (∃ p selected,
      fullEdge.findVictimsForObjectSize 0 2 {} [smallVictim 1, smallVictim 2] = some p ∧
      Selects fullEdge 0 2 [smallVictim 1, smallVictim 2] p selected) ∧
    ∃ cost p, fullEdgeTracker.calcEvictionCost .exact ⟨2, 1⟩ 2 [0]
        [(0, [smallVictim 1, smallVictim 2])] [] = some (cost, p) ∧
      ∀ key, (valueOf key p.pervictimCacheinfos).map List.length =
        (valueOf key p.pervictimEdgeset).map Finset.card := by
  obtain ⟨hedge, hplacement⟩ := selection_covers
  constructor
  · exact hedge fullEdge 0 2 _ {} [] tracked_fullEdge (by decide +kernel) found_nil
      ⟨rfl, rfl, Finset.notMem_empty 0⟩
  · refine hplacement fullEdgeTracker 2 [0] _ [] .exact ⟨2, 1⟩ ⟨?_, fun edgeIdx => ?_,
      fun edgeIdx => ?_⟩
      (fun _ h => nomatch h) (List.nodup_singleton 0)
    · intro edgeIdx metadata hmetadata
      cases hmetadata
      exact tracked_fullEdge
    · rw [extraOf_singleton]
      split
      · decide +kernel
      · exact List.forall_mem_nil _
    · rw [extraOf_singleton]
      split
      · decide +kernel
      · exact List.nodup_nil

/-- One byte that is tracked and one that was fetched do not save five bytes, but no further fetch
is noted; and a victim that was fetched twice ends the process. -/
theorem selection_falls_short : (¬ ∀ metadata edgeIdx objectSize extra p, Tracked metadata →
      metadata.findVictimsForObjectSize edgeIdx objectSize {} extra = some p →
      ∃ selected, syncedKeys p edgeIdx ++ fetchedKeys p edgeIdx =
          selected.map VictimCacheinfo.key ∧
        selected <+: availableVictims metadata extra ∧
        (missingBytes metadata objectSize ≤ victimBytes selected ∨
          edgeIdx ∈ p.victimFetchEdgeset)) ∧
    ¬ ∀ (t : VictimTracker) objectSize edges extra r w,
      (∀ edgeIdx metadata, t.peredgeVictimMetadata edgeIdx = some metadata → Tracked metadata) →
      (∀ edgeIdx, ∀ v ∈ extraOf extra edgeIdx, v.isComplete = true) → edges.Nodup →
      (t.calcEvictionCost r w objectSize edges extra []).isSome = true := by
  constructor
  · intro h
    have hfind : fullEdge.findVictimsForObjectSize 0 5 {} [smallVictim 2] =
        some (addTaken fullEdge 0 5 [smallVictim 2] {}) :=
      findVictimsForObjectSize_eq tracked_fullEdge (fun _ => by decide +kernel) found_nil rfl
        (Finset.notMem_empty 0)
    obtain ⟨selected, -, hinitial, hcovers⟩ :=
      h fullEdge 0 5 [smallVictim 2] _ tracked_fullEdge hfind
    rcases hcovers with hcovers | hnoted
    · -- all that is available has two bytes
      have hle := (hinitial.sublist.map VictimCacheinfo.objectSize).sum_le_sum fun _ _ =>
        Nat.zero_le _
      exact absurd (hcovers.trans hle) (by decide +kernel)
    · exact absurd hnoted (by decide +kernel)
  · intro h
    have hsome := h fullEdgeTracker 3 [0] [(0, [smallVictim 2, smallVictim 2])] .exact ⟨2, 1⟩ ?_ ?_
      (List.nodup_singleton 0)
    · exact absurd hsome (by decide +kernel)
    · intro edgeIdx metadata hmetadata
      cases hmetadata
      exact tracked_fullEdge
    · intro edgeIdx
      rw [extraOf_singleton]
      split
      · decide +kernel
      · exact List.forall_mem_nil _

end Covered.Placement
