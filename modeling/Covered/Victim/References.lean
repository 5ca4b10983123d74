import Covered.Victim.TrackerOperations

/-!
# Reference counts of victim directory infos

The directory infos of a victim key are shared by all edges that have the key as a victim. Their
reference count is to be the number of these edges, and they are to be dropped with the last of
them. The count goes up for every latest victim and down for every old one when the victims of an
edge are replaced; a placement that removes victims of an edge gives one reference back for every
key it is given, whether the edge has the key as a victim or not.

`refcnt_exact` is about runs in which no removal gives back a reference of another edge. The victim
lists that a tracker is given list every key once: they are made from the keys of a cache.
-/

set_option autoImplicit false

namespace Covered.Victim.VictimTracker

open Common Cooperation Lib Lib.Checked Lib.Execution KeyedList List KeyedList.NodupKeys
open EdgelevelVictimMetadata
open VictimSyncset (DistinctVictims PartCompressed)

/-! ## References and edges -/

/-- The key is a victim of the edge. -/
def Tracks (t : VictimTracker) (edgeIdx : Nat) (key : Key) : Prop :=
  key ∈ (t.victimsOf edgeIdx).map VictimCacheinfo.key

instance (t : VictimTracker) (edgeIdx : Nat) (key : Key) : Decidable (t.Tracks edgeIdx key) :=
  inferInstanceAs (Decidable (_ ∈ _))

/-- The edges that have the key as a victim. -/
def trackingEdges (edgecnt : Nat) (t : VictimTracker) (key : Key) : Finset Nat :=
  (Finset.range edgecnt).filter fun edgeIdx => t.Tracks edgeIdx key

/-- The directory infos of a key, if there are any. -/
def victimDirinfo (t : VictimTracker) (key : Key) : Option VictimDirinfo :=
  (KeyedList.find Prod.fst key t.perkeyVictimDirinfo).map Prod.snd

/-- The reference count of a key, `0` without directory infos. -/
def refcntOf (t : VictimTracker) (key : Key) : Nat :=
  (t.victimDirinfo key).elim 0 VictimDirinfo.refcnt

/-- A part of a syncset that is not compressed lists every victim once. -/
def ListsVictimsOnce (s : VictimSyncset) : Prop :=
  ¬ s.PartCompressed .localSyncedVictims → DistinctVictims s.localSyncedVictims

/-- The operation does not give back a reference of another edge, and lists every victim once. -/
def Operation.Sound (edgecnt : Nat) (t : VictimTracker) : Operation → Prop
  | .updateLocalSyncedVictims _ victims _ => DistinctVictims victims
  | .updateForNeighborVictimSyncset _ neighbor _ => ListsVictimsOnce neighbor
  | .removeVictimsForGivenEdge edgeIdx victimKeyset =>
      ∀ key ∈ victimKeyset,
        (victimKeyset.count key = 1 ∧ t.Tracks edgeIdx key) ∨
        ∀ other < edgecnt, other ≠ edgeIdx → ¬ t.Tracks other key
  | _ => True

/-! ## Counted directory infos -/

/-- Every key has at most one set of directory infos, and it has a reference. -/
structure Counted (t : VictimTracker) : Prop where
  distinct : KeyedList.NodupKeys Prod.fst t.perkeyVictimDirinfo
  positive : ∀ pair ∈ t.perkeyVictimDirinfo, 0 < pair.2.refcnt

section Counted

variable {t t' : VictimTracker} {key : Key} {view : CooperationView} {v : VictimCacheinfo}
  {victims : List VictimCacheinfo}

theorem count_cons_key (k key : Key) (rest : List Key) :
    (key :: rest).count k = (if k = key then 1 else 0) + rest.count k := by
  rw [count_cons, Nat.add_comm]
  by_cases hk : k = key
  · simp [hk]
  · simp [hk, Ne.symm hk]

theorem Counted.congr (h : Counted t) (hsame : t'.perkeyVictimDirinfo = t.perkeyVictimDirinfo) :
    Counted t' :=
  ⟨by rw [hsame]; exact h.distinct, by rw [hsame]; exact h.positive⟩

theorem refcntOf_congr (hsame : t'.perkeyVictimDirinfo = t.perkeyVictimDirinfo) (key : Key) :
    t'.refcntOf key = t.refcntOf key := by
  rw [refcntOf, refcntOf, victimDirinfo, victimDirinfo, hsame]

/-- A key has directory infos iff its reference count is positive. -/
theorem Counted.positive_iff (h : Counted t) (key : Key) :
    (t.victimDirinfo key).isSome = true ↔ 0 < t.refcntOf key := by
  rw [refcntOf, victimDirinfo]
  cases hfind : find Prod.fst key t.perkeyVictimDirinfo with
  | none => simp
  | some pair =>
    have hpositive := h.positive pair (mem_of_find hfind)
    simpa using hpositive

/-- The reference count of a key whose directory infos are replaced. -/
theorem refcntOf_replace {pair : Key × VictimDirinfo} {d : VictimDirinfo}
    (hfind : find Prod.fst key t.perkeyVictimDirinfo = some pair)
    (hreplace : t'.perkeyVictimDirinfo =
      replace Prod.fst key (key, d) t.perkeyVictimDirinfo) (k : Key) :
    t'.refcntOf k = if k = key then d.refcnt else t.refcntOf k := by
  rw [refcntOf, refcntOf, victimDirinfo, victimDirinfo, hreplace,
    find_replace (f := Prod.fst) (b := (key, d)) rfl]
  by_cases hk : k = key
  · rw [if_pos hk, if_pos hk, hfind]
    rfl
  · rw [if_neg hk, if_neg hk]

theorem Counted.replace (h : Counted t) {d : VictimDirinfo} (hd : 0 < d.refcnt)
    (hreplace : t'.perkeyVictimDirinfo =
      replace Prod.fst key (key, d) t.perkeyVictimDirinfo) : Counted t' := by
  constructor
  · rw [hreplace]
    exact h.distinct.replace rfl
  · intro pair hpair
    rw [hreplace] at hpair
    rcases mem_replace hpair with rfl | hold
    · exact hd
    · exact h.positive pair hold

theorem Counted.push (h : Counted t) (hnone : find Prod.fst key t.perkeyVictimDirinfo = none)
    (d : VictimDirinfo) : Counted (t.pushVictimDirinfo key d) := by
  constructor
  · exact h.distinct.append_singleton (b := (key, d.incrRefcnt)) hnone
  · intro pair hpair
    rcases mem_append.1 hpair with hold | hnew
    · exact h.positive pair hold
    · rw [mem_singleton.1 hnew]
      exact Nat.succ_pos d.refcnt

theorem refcntOf_push (hnone : find Prod.fst key t.perkeyVictimDirinfo = none)
    (d : VictimDirinfo) (k : Key) :
    (t.pushVictimDirinfo key d).refcntOf k = if k = key then d.refcnt + 1 else t.refcntOf k := by
  rw [refcntOf, refcntOf, victimDirinfo, victimDirinfo, pushVictimDirinfo,
    find_append_singleton (f := Prod.fst) (b := (key, d.incrRefcnt)) hnone]
  by_cases hk : k = key
  · rw [if_pos hk, if_pos hk]
    rfl
  · rw [if_neg hk, if_neg hk]

/-- Giving back a reference takes one off the count of the key, if there is one. -/
theorem counted_tryToReleaseVictimDirinfo (h : Counted t) (key : Key) :
    Counted (t.tryToReleaseVictimDirinfo key) ∧
    ∀ k, (t.tryToReleaseVictimDirinfo key).refcntOf k =
      t.refcntOf k - if k = key then 1 else 0 := by
  rw [tryToReleaseVictimDirinfo]
  split
  · next hnone =>
    refine ⟨h, fun k => ?_⟩
    split
    · next hk =>
      subst hk
      rw [refcntOf, victimDirinfo, hnone]
      rfl
    · rfl
  · next other d hfind =>
    have hother : other = key := key_of_find hfind
    subst hother
    have hpositive : 0 < d.refcnt := h.positive _ (mem_of_find hfind)
    have hrefcnt : t.refcntOf other = d.refcnt := by
      rw [refcntOf, victimDirinfo, hfind]
      rfl
    dsimp only
    split
    · next hzero =>
      -- the last reference: the directory infos are dropped
      have hone : d.refcnt = 1 := by
        have hdecr : d.refcnt - 1 = 0 := hzero
        omega
      refine ⟨⟨h.distinct.sublist erase_sublist, fun pair hpair =>
        h.positive pair (erase_sublist.subset hpair)⟩, fun k => ?_⟩
      rw [refcntOf, victimDirinfo, find_erase h.distinct]
      split
      · next hk =>
        rw [hk, hrefcnt, hone]
        rfl
      · rfl
    · next hsome =>
      refine ⟨h.replace (Nat.pos_of_ne_zero hsome) rfl, fun k => ?_⟩
      rw [refcntOf_replace hfind rfl]
      split
      · next hk =>
        rw [hk, hrefcnt]
        rfl
      · rfl

/-- Giving back a list of references. -/
theorem counted_releaseAll (h : Counted t) (keys : List Key) :
    Counted (keys.foldl tryToReleaseVictimDirinfo t) ∧
    ∀ k, (keys.foldl tryToReleaseVictimDirinfo t).refcntOf k = t.refcntOf k - keys.count k := by
  induction keys generalizing t with
  | nil => exact ⟨h, fun k => rfl⟩
  | cons key rest ih =>
    obtain ⟨hcounted, hrefcnt⟩ := counted_tryToReleaseVictimDirinfo h key
    obtain ⟨hcounted', hrefcnt'⟩ := ih hcounted
    refine ⟨hcounted', fun k => ?_⟩
    rw [foldl_cons, hrefcnt', hrefcnt, count_cons_key, Nat.sub_sub]

/-- A latest victim adds one to the count of its key. -/
theorem counted_addSyncedVictim (h : Counted t) (hadd : addSyncedVictim view t v = some t') :
    Counted t' ∧ ∀ k, t'.refcntOf k = t.refcntOf k + if k = v.key then 1 else 0 := by
  simp only [addSyncedVictim, require_bind_iff] at hadd
  obtain ⟨-, hadd⟩ := hadd
  rw [pure_eq_some_iff] at hadd
  subst hadd
  have hsized : Counted { t with sizeBytes := t.sizeBytes + v.getSizeForCapacity } := h.congr rfl
  split
  · next hnone =>
    refine ⟨hsized.push hnone _, fun k => ?_⟩
    have hpush := refcntOf_push (t := { t with sizeBytes := t.sizeBytes + v.getSizeForCapacity })
      hnone (.create (view.beaconOf v)) k
    rw [hpush, refcntOf_congr (t := t) rfl]
    split
    · next hk =>
      have hzero : t.refcntOf k = 0 := by
        rw [hk, refcntOf, victimDirinfo, hnone]
        rfl
      rw [hzero]
      rfl
    · rfl
  · next other d hfind =>
    have hother : other = v.key := key_of_find hfind
    subst hother
    refine ⟨hsized.replace (Nat.succ_pos d.refcnt) rfl, fun k => ?_⟩
    rw [refcntOf_replace (t := t) hfind rfl]
    split
    · next hk =>
      rw [hk, refcntOf, victimDirinfo, hfind]
      rfl
    · rfl

theorem counted_addSyncedVictims (h : Counted t)
    (hadd : victims.foldlM (addSyncedVictim view) t = some t') :
    Counted t' ∧
      ∀ k, t'.refcntOf k = t.refcntOf k + (victims.map VictimCacheinfo.key).count k := by
  induction victims generalizing t with
  | nil =>
    cases hadd
    exact ⟨h, fun k => rfl⟩
  | cons v rest ih =>
    rw [foldlM_cons, Option.bind_eq_bind] at hadd
    obtain ⟨t₁, h₁, hadd⟩ := bind_eq_some_iff.1 hadd
    obtain ⟨hcounted, hrefcnt⟩ := counted_addSyncedVictim h h₁
    obtain ⟨hcounted', hrefcnt'⟩ := ih hcounted hadd
    refine ⟨hcounted', fun k => ?_⟩
    rw [hrefcnt', hrefcnt, map_cons, count_cons_key, Nat.add_assoc]

/-- The old victims give their references back. -/
theorem counted_removeSyncedVictims (h : Counted t)
    (hremove : victims.foldlM removeSyncedVictim t = some t') :
    Counted t' ∧
      ∀ k, t'.refcntOf k = t.refcntOf k - (victims.map VictimCacheinfo.key).count k := by
  induction victims generalizing t with
  | nil =>
    cases hremove
    exact ⟨h, fun k => rfl⟩
  | cons v rest ih =>
    rw [foldlM_cons, Option.bind_eq_bind] at hremove
    obtain ⟨t₁, h₁, hremove⟩ := bind_eq_some_iff.1 hremove
    simp only [removeSyncedVictim, require_bind_iff] at h₁
    obtain ⟨-, h₁⟩ := h₁
    rw [pure_eq_some_iff] at h₁
    subst h₁
    have hsized : Counted { t with sizeBytes := t.sizeBytes - v.getSizeForCapacity } := h.congr rfl
    obtain ⟨hcounted, hrefcnt⟩ := counted_tryToReleaseVictimDirinfo hsized v.key
    obtain ⟨hcounted', hrefcnt'⟩ := ih hcounted hremove
    refine ⟨hcounted', fun k => ?_⟩
    rw [hrefcnt', hrefcnt, map_cons, count_cons_key, Nat.sub_sub]
    rfl

end Counted

/-! ## Directory infos that are replaced -/

section Dirinfos

variable {t t' : VictimTracker} {key : Key} {view : CooperationView}

variable {isLocalBeaconed isAdmit : Bool} {pair : Key × DirinfoSet} {sets : List (Key × DirinfoSet)}
    {victims : List VictimCacheinfo} {directoryInfo : DirectoryInfo}

/-- A replaced set of directory infos keeps the reference count, also of a locally beaconed key that
has directory infos already. -/
theorem counted_replaceVictimDirinfoSet (h : Counted t)
    (hpresent : isLocalBeaconed = true → 0 < t.refcntOf pair.1)
    (hreplace : replaceVictimDirinfoSet isLocalBeaconed t pair = some t') :
    Counted t' ∧ ∀ k, t'.refcntOf k = t.refcntOf k := by
  simp only [replaceVictimDirinfoSet, require_bind_iff] at hreplace
  obtain ⟨-, hreplace⟩ := hreplace
  obtain ⟨t₁, h₁, hset⟩ := bind_eq_some_iff.1 hreplace
  have hsame : t₁ = t := by
    rw [insertMissingDirinfo] at h₁
    split at h₁
    · next hmissing =>
      -- there is nothing to insert for a key with a reference
      have hpositive := hpresent hmissing.1
      rw [refcntOf, victimDirinfo, hmissing.2] at hpositive
      exact absurd hpositive (lt_irrefl 0)
    · cases h₁
      rfl
  subst hsame
  split at hset
  · cases hset
    exact ⟨h, fun k => rfl⟩
  · next other d hfind =>
    obtain ⟨d', hd', hset⟩ := bind_eq_some_iff.1 hset
    have hrefcnt : d'.refcnt = d.refcnt := by
      rw [VictimDirinfo.setDirinfoSet] at hd'
      split at hd'
      · cases hd'
        rfl
      · cases hd'
    cases hset
    have hpositive : 0 < d.refcnt := h.positive _ (mem_of_find hfind)
    refine ⟨h.replace (hrefcnt ▸ hpositive) rfl, fun k => ?_⟩
    rw [refcntOf_replace hfind rfl]
    split
    · next hk =>
      rw [hk, hrefcnt, refcntOf, victimDirinfo, hfind]
      rfl
    · rfl

theorem counted_replaceVictimDirinfoSets (h : Counted t)
    (hpresent : isLocalBeaconed = true → ∀ pair ∈ sets, 0 < t.refcntOf pair.1)
    (hreplace : t.replaceVictimDirinfoSets sets isLocalBeaconed = some t') :
    Counted t' ∧ ∀ k, t'.refcntOf k = t.refcntOf k := by
  refine foldlM_invariant (P := fun u => Counted u ∧ ∀ k, u.refcntOf k = t.refcntOf k) ?_
    ⟨h, fun k => rfl⟩ hreplace
  intro u pair u' hpair hu hstep
  obtain ⟨hcounted, hrefcnt⟩ := counted_replaceVictimDirinfoSet hu.1
    (fun hlocal => (hu.2 pair.1).symm ▸ hpresent hlocal pair hpair) hstep
  exact ⟨hcounted, fun k => (hrefcnt k).trans (hu.2 k)⟩

/-- The locally beaconed victims are among the victims. -/
theorem key_mem_of_localBeaconed {edgeIdx : Nat}
    (hsets : view.getLocalBeaconedVictimsFromCacheinfos edgeIdx victims = some sets)
    (hpair : pair ∈ sets) :
    pair.1 ∈ victims.map VictimCacheinfo.key := by
  induction victims generalizing sets with
  | nil =>
    cases hsets
    cases hpair
  | cons v rest ih =>
    simp only [CooperationView.getLocalBeaconedVictimsFromCacheinfos, bind_eq_some_iff,
      pure_eq_some_iff] at hsets
    obtain ⟨-, -, others, hothers, rfl⟩ := hsets
    rw [map_cons, mem_cons]
    split at hpair
    · exact .inr (ih hothers hpair)
    · split at hpair
      · rcases mem_cons.1 hpair with rfl | hrest
        · exact .inl rfl
        · exact .inr (ih hothers hrest)
      · exact .inr (ih hothers hpair)

theorem counted_replaceLocalBeaconedDirinfoSets (h : Counted t)
    (hpresent : ∀ key ∈ victims.map VictimCacheinfo.key, 0 < t.refcntOf key)
    (hreplace : t.replaceLocalBeaconedDirinfoSets victims view = some t') :
    Counted t' ∧ ∀ k, t'.refcntOf k = t.refcntOf k := by
  simp only [replaceLocalBeaconedDirinfoSets, bind_eq_some_iff, require_eq_some_iff] at hreplace
  obtain ⟨sets, hsets, -, -, hreplace⟩ := hreplace
  refine counted_replaceVictimDirinfoSets h (fun _ pair hpair => ?_) hreplace
  exact hpresent pair.1 (key_mem_of_localBeaconed hsets hpair)

theorem refcnt_updateDirinfoSet {d d' : VictimDirinfo} {isUpdate : Bool}
    (h : d.updateDirinfoSet isAdmit directoryInfo = some (d', isUpdate)) :
    d'.refcnt = d.refcnt := by
  have hset : ∀ set d', d.setDirinfoSet set = some d' → d'.refcnt = d.refcnt := by
    intro set d' hd'
    rw [VictimDirinfo.setDirinfoSet] at hd'
    split at hd'
    · cases hd'
      rfl
    · cases hd'
  rw [VictimDirinfo.updateDirinfoSet, Option.bind_eq_bind] at h
  dsimp only at h
  split at h
  · simp only [Option.bind_eq_bind, Option.bind_eq_some_iff] at h
    obtain ⟨set, -, updated, hupdated, heq⟩ := h
    cases heq
    exact hset set _ hupdated
  · simp only [Option.bind_eq_bind, Option.bind_eq_some_iff] at h
    obtain ⟨set, -, updated, hupdated, heq⟩ := h
    cases heq
    exact hset set _ hupdated

theorem counted_updateLocalBeaconedVictimDirinfo (h : Counted t)
    (hupdate : t.updateLocalBeaconedVictimDirinfo key isAdmit directoryInfo = some t') :
    Counted t' ∧ ∀ k, t'.refcntOf k = t.refcntOf k := by
  rw [updateLocalBeaconedVictimDirinfo] at hupdate
  split at hupdate
  · cases hupdate
    exact ⟨h, fun k => rfl⟩
  · next other d hfind =>
    obtain ⟨⟨d', isUpdate⟩, hd', hupdate⟩ := bind_eq_some_iff.1 hupdate
    have hrefcnt := refcnt_updateDirinfoSet hd'
    cases hupdate
    have hpositive : 0 < d.refcnt := h.positive _ (mem_of_find hfind)
    refine ⟨h.replace (hrefcnt ▸ hpositive) rfl, fun k => ?_⟩
    rw [refcntOf_replace hfind rfl]
    split
    · next hk =>
      rw [hk, hrefcnt, refcntOf, victimDirinfo, hfind]
      rfl
    · rfl

end Dirinfos

/-! ## The invariant -/

/-- The reference counts are the numbers of edges that track the keys. -/
structure Referenced (edgecnt : Nat) (t : VictimTracker) : Prop where
  counted : Counted t
  refcnt : ∀ key, t.refcntOf key = (trackingEdges edgecnt t key).card
  victims : ∀ edgeIdx, DistinctVictims (t.victimsOf edgeIdx)
  cached : ∀ edgeIdx, ∀ s ∈ (t.peredgeVictimsyncMonitor edgeIdx).cachedVictimSyncsets,
    ListsVictimsOnce s

/-- How the number of tracking edges changes with the victims of one edge. -/
theorem card_trackingEdges (t t' : VictimTracker) {edgecnt edgeIdx : Nat}
    (hedge : edgeIdx < edgecnt) (hother : ∀ e, e ≠ edgeIdx → t'.victimsOf e = t.victimsOf e)
    (key : Key) :
    (trackingEdges edgecnt t' key).card + (if t.Tracks edgeIdx key then 1 else 0) =
      (trackingEdges edgecnt t key).card + (if t'.Tracks edgeIdx key then 1 else 0) := by
  rw [trackingEdges, trackingEdges, Finset.card_filter, Finset.card_filter]
  refine sum_range_replace (f := fun e => if t.Tracks e key then 1 else 0)
    (g := fun e => if t'.Tracks e key then 1 else 0) hedge fun e he => ?_
  have hsame : t'.Tracks e key ↔ t.Tracks e key := by rw [Tracks, Tracks, hother e he]
  exact if_congr hsame rfl rfl

/-- Among distinct victims a key is counted once if it is tracked. -/
theorem count_victimsOf {t : VictimTracker} {edgeIdx : Nat}
    (h : DistinctVictims (t.victimsOf edgeIdx)) (key : Key) :
    ((t.victimsOf edgeIdx).map VictimCacheinfo.key).count key =
      if t.Tracks edgeIdx key then 1 else 0 := by
  split
  · next hmem => exact count_eq_one_of_mem h hmem
  · next hnot => exact count_eq_zero_of_not_mem hnot

theorem victimsOf_congr {t t' : VictimTracker}
    (h : t'.peredgeVictimMetadata = t.peredgeVictimMetadata) (edgeIdx : Nat) :
    t'.victimsOf edgeIdx = t.victimsOf edgeIdx := by
  rw [victimsOf, victimsOf, h]

theorem victimsOf_withMetadata (t : VictimTracker) (edgeIdx bytes : Nat)
    (victims : List VictimCacheinfo) (e : Nat) :
    (t.withMetadata edgeIdx bytes victims).victimsOf e =
      if e = edgeIdx then victims else t.victimsOf e := by
  rw [victimsOf, metadata_withMetadata]
  split <;> rfl

section Steps

variable {edgecnt edgeIdx cacheMarginBytes : Nat} {t t' : VictimTracker} {view : CooperationView}
  {victims : List VictimCacheinfo}

section Referenced

variable (h : Referenced edgecnt t)
include h

/-- What changes neither the directory infos' counts nor the victims keeps the invariant. -/
theorem Referenced.congr (hcounted : Counted t') (hrefcnt : ∀ k, t'.refcntOf k = t.refcntOf k)
    (hvictims : ∀ e, t'.victimsOf e = t.victimsOf e)
    (hcached : ∀ e, ∀ s ∈ (t'.peredgeVictimsyncMonitor e).cachedVictimSyncsets,
      ListsVictimsOnce s) : Referenced edgecnt t' where
  counted := hcounted
  refcnt key := by
    rw [hrefcnt, h.refcnt]
    refine congrArg Finset.card (Finset.filter_congr fun e _ => ?_)
    rw [Tracks, Tracks, hvictims]
  victims e := by
    rw [hvictims]
    exact h.victims e
  cached := hcached

/-- The reference counts after the victims of an edge are replaced. -/
theorem referenced_replaceVictimMetadataForEdgeIdx (hedge : edgeIdx < edgecnt)
    (hdistinct : DistinctVictims victims)
    (hreplace : t.replaceVictimMetadataForEdgeIdx edgeIdx cacheMarginBytes victims view = some t') :
    Referenced edgecnt t' ∧ t'.victimsOf edgeIdx = victims := by
  obtain ⟨-, hsame⟩ := replaceVictimMetadataForEdgeIdx_cases hreplace
  have hvictims : ∀ e, t'.victimsOf e = if e = edgeIdx then victims else t.victimsOf e := by
    intro e
    rw [victimsOf_congr hsame.metadata, victimsOf_withMetadata]
  simp only [replaceVictimMetadataForEdgeIdx, require_bind_iff] at hreplace
  obtain ⟨-, hreplace⟩ := hreplace
  obtain ⟨t₂, hadd, hremove⟩ := bind_eq_some_iff.1 hreplace
  have hcounted₁ : Counted { t with
      sizeBytes := if (t.peredgeVictimMetadata edgeIdx).isSome then t.sizeBytes else t.sizeBytes + 8
      peredgeVictimMetadata :=
        Function.update t.peredgeVictimMetadata edgeIdx (some ⟨cacheMarginBytes, victims⟩) } :=
    h.counted.congr rfl
  obtain ⟨hcounted₂, hrefcnt₂⟩ := counted_addSyncedVictims hcounted₁ hadd
  obtain ⟨hcounted, hrefcnt⟩ := counted_removeSyncedVictims hcounted₂ hremove
  refine ⟨⟨hcounted, fun key => ?_, fun e => ?_, ?_⟩, by rw [hvictims, if_pos rfl]⟩
  · have hcard := card_trackingEdges t t' hedge
      (fun e he => by rw [hvictims, if_neg he]) key
    have hself : t'.victimsOf edgeIdx = victims := by rw [hvictims, if_pos rfl]
    have hold := h.refcnt key
    have hadded : t₂.refcntOf key =
        t.refcntOf key + (victims.map VictimCacheinfo.key).count key := hrefcnt₂ key
    have hdistinct' : DistinctVictims (t'.victimsOf edgeIdx) := hself.symm ▸ hdistinct
    have hnew := count_victimsOf hdistinct' key
    rw [hself] at hnew
    rw [hrefcnt, hadded, hnew, count_victimsOf (h.victims edgeIdx)]
    omega
  · rw [hvictims]
    split
    · exact hdistinct
    · exact h.victims e
  · rw [hsame.monitor]
    exact h.cached

/-- After a replacement every new victim has directory infos. -/
theorem Referenced.refcnt_pos (hedge : edgeIdx < edgecnt) {key : Key}
    (hkey : key ∈ (t.victimsOf edgeIdx).map VictimCacheinfo.key) : 0 < t.refcntOf key := by
  rw [h.refcnt]
  apply Finset.card_pos.2
  exact ⟨edgeIdx, Finset.mem_filter.2 ⟨Finset.mem_range.2 hedge, hkey⟩⟩

theorem referenced_replaceLocalBeaconedDirinfoSets (hedge : edgeIdx < edgecnt)
    (hvictims : t.victimsOf edgeIdx = victims)
    (hreplace : t.replaceLocalBeaconedDirinfoSets victims view = some t') :
    Referenced edgecnt t' := by
  have hsame := sameTracking_replaceLocalBeaconedDirinfoSets hreplace
  obtain ⟨hcounted, hrefcnt⟩ := counted_replaceLocalBeaconedDirinfoSets h.counted
    (fun key hkey => h.refcnt_pos hedge (hvictims.symm ▸ hkey)) hreplace
  refine h.congr hcounted hrefcnt (victimsOf_congr hsame.metadata) ?_
  rw [hsame.monitor]
  exact h.cached

theorem referenced_updateLocalSyncedVictims (hedge : t.edgeIdx < edgecnt)
    (hdistinct : DistinctVictims victims)
    (hupdate : t.updateLocalSyncedVictims cacheMarginBytes victims view = some t') :
    Referenced edgecnt t' := by
  simp only [updateLocalSyncedVictims, bind_eq_some_iff] at hupdate
  obtain ⟨t₁, h₁, hupdate⟩ := hupdate
  obtain ⟨href, hvictims⟩ := referenced_replaceVictimMetadataForEdgeIdx h hedge hdistinct h₁
  exact referenced_replaceLocalBeaconedDirinfoSets href hedge hvictims hupdate

theorem referenced_updateLocalCacheMarginBytes (bytes : Nat) :
    Referenced edgecnt (t.updateLocalCacheMarginBytes bytes) := by
  have hsame := sameTracking_updateLocalCacheMarginBytes t bytes
  have hdirinfo : (t.updateLocalCacheMarginBytes bytes).perkeyVictimDirinfo =
      t.perkeyVictimDirinfo := by
    rw [updateLocalCacheMarginBytes]
    split <;> rfl
  refine h.congr (h.counted.congr hdirinfo) (refcntOf_congr hdirinfo) (fun e => ?_) ?_
  · rw [victimsOf_congr hsame.metadata, victimsOf_withMetadata]
    split
    · next he => rw [he]
    · rfl
  · rw [hsame.monitor]
    exact h.cached

end Referenced

end Steps

/-! ## Syncsets of neighbors -/

section Neighbor

open VictimSyncset

variable {compressed existing recovered : VictimSyncset}

theorem distinct_applyVictims {known known' messages : List VictimCacheinfo}
    (h : DistinctVictims known) (happly : applyVictims known messages = some known') :
    DistinctVictims known' := by
  induction messages generalizing known with
  | nil =>
    cases happly
    exact h
  | cons m rest ih =>
    simp only [applyVictims, applyAll, bind_eq_some_iff] at happly
    obtain ⟨known₁, h₁, happly⟩ := happly
    refine ih ?_ happly
    simp only [applyVictim, VictimCacheinfo.findVictimCacheinfoForKey] at h₁
    split at h₁
    · next hnone =>
      -- an unknown key: it is appended only if the message is complete
      split at h₁
      · cases h₁
        exact append_singleton h hnone
      · split at h₁
        · cases h₁
          exact h
        · rw [require_bind_iff] at h₁
          cases h₁.2
          exact h
    · next v hfind =>
      split at h₁
      · cases h₁
        exact replace h rfl
      · split at h₁
        · cases h₁
          exact sublist h erase_sublist
        · rw [require_bind_iff] at h₁
          obtain ⟨-, h₁⟩ := h₁
          obtain ⟨r, hr, h₁⟩ := bind_eq_some_iff.1 h₁
          cases h₁
          refine replace h ?_
          -- recovery keeps the key of the existing victim
          simp only [VictimCacheinfo.recover, bind_eq_some_iff, pure_eq_some_iff] at hr
          obtain ⟨-, -, -, -, -, -, rfl⟩ := hr
          have hkey : v.key = m.key := key_of_find hfind
          exact hkey

/-- Recovery from distinct victims gives distinct victims. -/
theorem distinct_recover (hcompressed : ListsVictimsOnce compressed)
    (hexisting : DistinctVictims existing.localSyncedVictims)
    (hrecover : recover compressed existing = some recovered) :
    DistinctVictims recovered.localSyncedVictims := by
  simp only [recover, bind_eq_some_iff, require_eq_some_iff, pure_eq_some_iff] at hrecover
  obtain ⟨-, -, -, -, next, -, -, -, s₁, h₁, s₂, h₂, s₃, h₃, -, -, -, -, -, -, rfl⟩ := hrecover
  have hmargin : s₁.localSyncedVictims = compressed.localSyncedVictims := by
    rw [recoverCacheMarginBytes] at h₁
    split at h₁
    · cases h₁
      rfl
    · simp only [bind_eq_some_iff, pure_eq_some_iff] at h₁
      obtain ⟨-, -, bytes, -, rfl⟩ := h₁
      rfl
  have hbeaconed : s₃.localSyncedVictims = s₂.localSyncedVictims := by
    simp only [recoverLocalBeaconedVictims, getLocalBeaconedVictims, decide_eq_true_eq] at h₃
    split at h₃
    · cases h₃
      rfl
    · simp only [bind_eq_some_iff, pure_eq_some_iff] at h₃
      obtain ⟨-, -, dirinfos, -, rfl⟩ := h₃
      rfl
  rw [hbeaconed]
  simp only [recoverLocalSyncedVictims, getLocalSyncedVictims, decide_eq_true_eq] at h₂
  split at h₂
  · next hcomplete =>
    cases h₂
    rw [hmargin]
    exact hcompressed hcomplete
  · simp only [bind_eq_some_iff, pure_eq_some_iff] at h₂
    obtain ⟨-, -, victims, hvictims, rfl⟩ := h₂
    apply perm (distinct_applyVictims hexisting hvictims)
    exact (VictimCacheinfo.perm_sortByLocalRewards victims).symm

open VictimsyncMonitor

variable {m m' : VictimsyncMonitor} {neighbor complete final : VictimSyncset}
  {cached cached' : List VictimSyncset} {out : Option VictimSyncset} {n cnt syncedSeqnum : Nat}

/-- What is recovered from the buffer lists every victim once. -/
theorem distinct_clearContinuousLoop (hcached : ∀ s ∈ cached, ListsVictimsOnce s)
    (hcomplete : DistinctVictims complete.localSyncedVictims)
    (hloop : clearContinuousLoop n complete cached = some (cached', final)) :
    DistinctVictims final.localSyncedVictims := by
  induction n generalizing complete cached with
  | zero =>
    cases hloop
    exact hcomplete
  | succ n ih =>
    simp only [clearContinuousLoop, Option.bind_eq_bind] at hloop
    obtain ⟨found, hfound, hloop⟩ := bind_eq_some_iff.1 hloop
    cases found with
    | none =>
      cases hloop
      exact hcomplete
    | some pair =>
      obtain ⟨s, rest⟩ := pair
      obtain ⟨hmem, -, -, hsub⟩ := findContinuous_found hfound
      simp only [Option.bind_eq_some_iff, require_eq_some_iff] at hloop
      obtain ⟨r, hr, -, -, -, -, hloop⟩ := hloop
      exact ih (fun u hu => hcached u (hsub.subset hu))
        (distinct_recover (hcached s hmem) hcomplete hr) hloop

theorem distinct_track (hcached : ∀ s ∈ m.cachedVictimSyncsets, ListsVictimsOnce s)
    (hcomplete : DistinctVictims complete.localSyncedVictims)
    (htrack : m.track complete syncedSeqnum cnt = some (m', out)) :
    ∀ final, out = some final → DistinctVictims final.localSyncedVictims := by
  simp only [track, tryToClearEnforcementStatus, clearStaleCachedVictimSyncsets,
    clearContinuousCachedVictimSyncsets, bind_eq_some_iff, require_eq_some_iff, pure_eq_some_iff,
    Prod.mk.injEq, Prod.exists] at htrack
  obtain ⟨m₁, final, ⟨-, -, -, -, m₀, ⟨-, -, rfl⟩, m₂, final', ⟨-, -, -, -, -, -, cached,
    final'', hloop, rfl, rfl⟩, -, -, rfl, rfl⟩, rfl, rfl⟩ := htrack
  rintro final ⟨⟩
  exact distinct_clearContinuousLoop (fun s hs => hcached s (mem_of_mem_filter hs)) hcomplete
    hloop

/-- A receipt keeps the buffer in order, and what it gives to apply lists every victim once. -/
theorem listsOnce_receive {known : Option VictimSyncset}
    (hcached : ∀ s ∈ m.cachedVictimSyncsets, ListsVictimsOnce s)
    (hneighbor : ListsVictimsOnce neighbor)
    (hknown : ∀ e, known = some e → DistinctVictims e.localSyncedVictims)
    (hreceive : m.receive cnt known neighbor = some (m', out)) :
    (∀ s ∈ m'.cachedVictimSyncsets, ListsVictimsOnce s) ∧
      ∀ final, out = some final → DistinctVictims final.localSyncedVictims := by
  refine ⟨fun s hs => ?_, ?_⟩
  · rcases (receive_frame hreceive).2 s hs with hold | rfl
    · exact hcached s hold
    · exact hneighbor
  have hcomplete : neighbor.isComplete = true → DistinctVictims neighbor.localSyncedVictims :=
    fun h => hneighbor ((isComplete_iff neighbor).1 h .localSyncedVictims)
  -- a syncset that is buffered gives nothing to apply
  have hbuffer : m.buffer neighbor neighbor.seqnum cnt = some (m', out) → out = none := by
    intro h
    simp only [buffer, bind_eq_some_iff, pure_eq_some_iff, Prod.mk.injEq] at h
    obtain ⟨-, -, -, rfl⟩ := h
    rfl
  rw [receive] at hreceive
  split at hreceive
  · split at hreceive
    · next hkind =>
      simp only [clearFirstCompleteReceived, bind_eq_some_iff, pure_eq_some_iff] at hreceive
      obtain ⟨m₁, ⟨-, -, rfl⟩, htrack⟩ := hreceive
      exact distinct_track (m := { m with isFirstCompleteReceived := false }) hcached
        (hcomplete hkind) htrack
    · rw [hbuffer hreceive]
      rintro final ⟨⟩
  · split at hreceive
    · cases hreceive
      rintro final ⟨⟩
    · rw [Option.bind_eq_bind] at hreceive
      obtain ⟨next, -, hreceive⟩ := bind_eq_some_iff.1 hreceive
      split at hreceive
      · -- the next syncset: recovered from what the tracker has
        obtain ⟨c, hc, htrack⟩ := bind_eq_some_iff.1 hreceive
        refine distinct_track hcached ?_ htrack
        rw [recoverMatched] at hc
        split at hc
        · next hkind =>
          cases hc
          exact hcomplete hkind
        · simp only [bind_eq_some_iff, pure_eq_some_iff] at hc
          obtain ⟨e, he, -, -, r, hr, -, -, rfl⟩ := hc
          exact distinct_recover hneighbor (hknown e he) hr
      · split at hreceive
        · next hkind => exact distinct_track hcached (hcomplete hkind) hreceive
        · rw [hbuffer hreceive]
          rintro final ⟨⟩

end Neighbor

/-! ## Every operation -/

section Operations

variable {edgecnt edgeIdx : Nat} {t t' : VictimTracker} {view : CooperationView}

theorem referenced_applyNeighborVictimSyncset (h : Referenced edgecnt t)
    (hedge : edgeIdx < edgecnt) {final : VictimSyncset} {syncedSeqnum : Nat}
    (hfinal : DistinctVictims final.localSyncedVictims)
    (happly : t.applyNeighborVictimSyncset edgeIdx syncedSeqnum final view = some t') :
    Referenced edgecnt t' := by
  simp only [applyNeighborVictimSyncset, bind_eq_some_iff, require_eq_some_iff] at happly
  obtain ⟨-, -, -, -, bytes, -, -, -, -, -, t₁, h₁, t₂, h₂, happly⟩ := happly
  obtain ⟨href, hvictims⟩ := referenced_replaceVictimMetadataForEdgeIdx h hedge hfinal h₁
  have hsame := sameTracking_replaceVictimDirinfoSets h₂
  obtain ⟨hcounted, hrefcnt⟩ := counted_replaceVictimDirinfoSets href.counted (by simp) h₂
  have href₂ : Referenced edgecnt t₂ := by
    refine href.congr hcounted hrefcnt (victimsOf_congr hsame.metadata) ?_
    rw [hsame.monitor]
    exact href.cached
  refine referenced_replaceLocalBeaconedDirinfoSets href₂ hedge ?_ happly
  rw [victimsOf_congr hsame.metadata, hvictims]
  rfl

/-- A monitor may be replaced by one whose buffer is in order. -/
theorem Referenced.setMonitor (h : Referenced edgecnt t) {m : VictimsyncMonitor}
    (hm : ∀ s ∈ m.cachedVictimSyncsets, ListsVictimsOnce s) (edgeIdx : Nat) :
    Referenced edgecnt (t.setMonitor edgeIdx m) := by
  refine h.congr (h.counted.congr rfl) (refcntOf_congr rfl) (victimsOf_congr rfl) fun e => ?_
  simp only [VictimTracker.setMonitor, Function.update_apply]
  split
  · exact hm
  · exact h.cached e

theorem referenced_updateForNeighborVictimSyncset (h : Referenced edgecnt t)
    (hedge : edgeIdx < edgecnt) {neighbor : VictimSyncset} (hneighbor : ListsVictimsOnce neighbor)
    (hupdate : t.updateForNeighborVictimSyncset edgeIdx neighbor view = some t') :
    Referenced edgecnt t' := by
  simp only [updateForNeighborVictimSyncset] at hupdate
  obtain ⟨⟨m, out⟩, hreceive, hupdate⟩ := bind_eq_some_iff.1 hupdate
  have hcached : ∀ s ∈ (t.obeyEnforcement edgeIdx neighbor).cachedVictimSyncsets,
      ListsVictimsOnce s := by
    rw [obeyEnforcement]
    split
    · exact h.cached edgeIdx
    · exact h.cached edgeIdx
  have hknown : ∀ e, t.existingVictimSyncset edgeIdx = some e →
      DistinctVictims e.localSyncedVictims := by
    intro e he
    obtain ⟨s, hs, -, -, hvictims, -⟩ := t.getVictimSyncset_spec edgeIdx
    rw [existingVictimSyncset, hs] at he
    cases he
    rw [VictimSyncset.setSeqnum, hvictims]
    exact h.victims edgeIdx
  obtain ⟨hm, hout⟩ := listsOnce_receive hcached hneighbor hknown hreceive
  cases out with
  | none =>
    cases hupdate
    exact h.setMonitor hm edgeIdx
  | some final =>
    obtain ⟨t₁, h₁, hupdate⟩ := bind_eq_some_iff.1 hupdate
    cases hupdate
    exact (referenced_applyNeighborVictimSyncset h hedge (hout final rfl) h₁).setMonitor hm edgeIdx

/-- The victims that a removal leaves are those of the other keys. -/
theorem tracks_removeVictims {metadata : EdgelevelVictimMetadata} {keys : List Key} {key : Key}
    (hdistinct : DistinctVictims metadata.victimCacheinfos) :
    key ∈ (metadata.removeVictimsForPlacement keys).1.victimCacheinfos.map VictimCacheinfo.key ↔
      key ∈ metadata.victimCacheinfos.map VictimCacheinfo.key ∧ key ∉ keys := by
  have hfold : ∀ acc : List VictimCacheinfo × Nat, DistinctVictims acc.1 →
      (key ∈ (keys.foldl removeVictim acc).1.map VictimCacheinfo.key ↔
        key ∈ acc.1.map VictimCacheinfo.key ∧ key ∉ keys) := by
    induction keys with
    | nil => simp
    | cons first rest ih =>
      intro acc hacc
      rw [foldl_cons]
      -- one step removes the first key, whether it is there or not
      have hstep : DistinctVictims (removeVictim acc first).1 ∧
          (key ∈ (removeVictim acc first).1.map VictimCacheinfo.key ↔
            key ∈ acc.1.map VictimCacheinfo.key ∧ key ≠ first) := by
        rw [removeVictim]
        split
        · next hnone =>
          refine ⟨hacc, ?_⟩
          rw [find_eq_none_iff] at hnone
          refine ⟨fun hmem => ⟨hmem, ?_⟩, fun hmem => hmem.1⟩
          rintro rfl
          exact hnone hmem
        · refine ⟨sublist hacc erase_sublist, ?_⟩
          rw [← not_iff_not, ← find_eq_none_iff, find_erase hacc, not_and_or,
            ← find_eq_none_iff, not_not]
          by_cases hkey : key = first
          · simp [hkey]
          · simp [hkey]
      rw [ih _ hstep.1, hstep.2, mem_cons]
      tauto
  exact hfold (metadata.victimCacheinfos, 0) hdistinct

theorem referenced_removeVictimsForGivenEdge (h : Referenced edgecnt t)
    (hedge : edgeIdx < edgecnt) {keys : List Key}
    (hsound : (Operation.removeVictimsForGivenEdge edgeIdx keys).Sound edgecnt t)
    (hremove : t.removeVictimsForGivenEdge edgeIdx keys = some t') : Referenced edgecnt t' := by
  simp only [removeVictimsForGivenEdge, bind_eq_some_iff, pure_eq_some_iff] at hremove
  obtain ⟨metadata, hmetadata, rfl⟩ := hremove
  set remaining := (metadata.removeVictimsForPlacement keys).1 with hremaining
  set removed : VictimTracker := { t with
    sizeBytes := t.sizeBytes - (metadata.removeVictimsForPlacement keys).2
    peredgeVictimMetadata := Function.update t.peredgeVictimMetadata edgeIdx (some remaining) }
    with hremoved
  have hcounted₁ : Counted removed := h.counted.congr rfl
  obtain ⟨hcounted, hrefcnt⟩ := counted_releaseAll hcounted₁ keys
  have hsame : SameTracking removed (keys.foldl tryToReleaseVictimDirinfo removed) := by
    refine foldlRecOn keys tryToReleaseVictimDirinfo (.refl removed) fun u hu key _ => ?_
    exact hu.trans (sameTracking_tryToReleaseVictimDirinfo u key)
  have hvictims : ∀ e, (keys.foldl tryToReleaseVictimDirinfo removed).victimsOf e =
      if e = edgeIdx then remaining.victimCacheinfos else t.victimsOf e := by
    intro e
    rw [victimsOf_congr hsame.metadata, victimsOf, hremoved]
    simp only [Function.update_apply]
    split <;> rfl
  have hold : t.victimsOf edgeIdx = metadata.victimCacheinfos := by
    rw [victimsOf, hmetadata]
    rfl
  have hdistinct : DistinctVictims metadata.victimCacheinfos := hold ▸ h.victims edgeIdx
  refine ⟨hcounted, fun key => ?_, fun e => ?_, ?_⟩
  · have hcard := card_trackingEdges t (keys.foldl tryToReleaseVictimDirinfo removed) hedge
      (fun e he => by rw [hvictims, if_neg he]) key
    have htracks : (keys.foldl tryToReleaseVictimDirinfo removed).Tracks edgeIdx key ↔
        t.Tracks edgeIdx key ∧ key ∉ keys := by
      rw [Tracks, Tracks, hvictims, if_pos rfl, hold]
      exact tracks_removeVictims hdistinct
    have hbefore : removed.refcntOf key = (trackingEdges edgecnt t key).card := h.refcnt key
    rw [hrefcnt, hbefore]
    rw [if_congr htracks rfl rfl] at hcard
    by_cases hmem : key ∈ keys
    · have hgone : ¬ (t.Tracks edgeIdx key ∧ key ∉ keys) := fun hand => hand.2 hmem
      rw [if_neg hgone] at hcard
      rcases hsound key hmem with ⟨hcount, htracked⟩ | halone
      · rw [if_pos htracked] at hcard
        omega
      · -- no other edge tracks the key, so afterwards none does
        have hpositive := count_pos_iff.2 hmem
        have hempty : trackingEdges edgecnt (keys.foldl tryToReleaseVictimDirinfo removed) key =
            ∅ := by
          apply Finset.filter_eq_empty_iff.2
          intro e he htracked
          by_cases hself : e = edgeIdx
          · subst hself
            exact (htracks.1 htracked).2 hmem
          · refine halone e (Finset.mem_range.1 he) hself ?_
            rw [Tracks, hvictims, if_neg hself] at htracked
            exact htracked
        rw [hempty, Finset.card_empty] at hcard ⊢
        split at hcard <;> omega
    · rw [count_eq_zero_of_not_mem hmem]
      split at hcard <;> simp_all
  · rw [hvictims]
    split
    · exact sublist hdistinct (removeVictims_sublist metadata keys)
    · exact h.victims e
  · rw [hsame.monitor]
    exact h.cached

theorem keys_map_received (victims : List VictimCacheinfo) :
    (victims.map VictimCacheinfo.received).map VictimCacheinfo.key =
      victims.map VictimCacheinfo.key := by
  rw [map_map]
  rfl

/-- A snapshot keeps the victims' keys and the reference counts. -/
theorem referenced_dumpAndLoad (h : Referenced edgecnt t) {d : Dump}
    (hdump : t.dumpVictimTracker edgecnt = some d) (fresh : VictimTracker) :
    Referenced edgecnt (fresh.loadVictimTracker d) := by
  have hkeys : ∀ e, ((fresh.loadVictimTracker d).victimsOf e).map VictimCacheinfo.key =
      (t.victimsOf e).map VictimCacheinfo.key := by
    intro e
    rw [victimsOf_loadVictimTracker hdump, keys_map_received]
  simp only [dumpVictimTracker, bind_eq_some_iff, pure_eq_some_iff] at hdump
  obtain ⟨-, -, rfl⟩ := hdump
  set loaded := fresh.loadVictimTracker _ with hloaded
  have hfind : ∀ key, find Prod.fst key loaded.perkeyVictimDirinfo =
      (find Prod.fst key t.perkeyVictimDirinfo).map
        fun pair => (pair.1, pair.2.received) := by
    intro key
    rw [hloaded, find, find, loadVictimTracker, find?_map]
    rfl
  refine ⟨⟨?_, ?_⟩, fun key => ?_, fun e => ?_, ?_⟩
  · have hdistinct := h.counted.distinct
    rw [KeyedList.NodupKeys] at hdistinct ⊢
    rw [hloaded, loadVictimTracker, map_map]
    exact hdistinct
  · intro pair hpair
    obtain ⟨old, hold, rfl⟩ := mem_map.1 hpair
    exact h.counted.positive old hold
  · have hrefcnt : loaded.refcntOf key = t.refcntOf key := by
      rw [refcntOf, refcntOf, victimDirinfo, victimDirinfo, hfind]
      cases find Prod.fst key t.perkeyVictimDirinfo with
      | none => rfl
      | some pair => rfl
    rw [hrefcnt, h.refcnt]
    refine congrArg Finset.card (Finset.filter_congr fun e _ => ?_)
    rw [Tracks, Tracks, hkeys]
  · have hdistinct := h.victims e
    rw [DistinctVictims, KeyedList.NodupKeys] at hdistinct ⊢
    rw [hkeys]
    exact hdistinct
  · intro e s hs
    obtain ⟨old, hold, rfl⟩ := mem_map.1 hs
    intro hcomplete
    have hdistinct := h.cached e old hold hcomplete
    rw [DistinctVictims, KeyedList.NodupKeys] at hdistinct ⊢
    rw [VictimSyncset.received, keys_map_received]
    exact hdistinct

theorem referenced_step {op : Operation} {out : Option VictimSyncset} (h : Referenced edgecnt t)
    (hsound : op.Sound edgecnt t) (hstep : step edgecnt t op = some (t', out)) :
    Referenced edgecnt t' := by
  cases op with
  | updateLocalCacheMarginBytes bytes =>
    simp only [step, require_bind_iff] at hstep
    obtain ⟨-, heq⟩ := hstep
    cases heq
    exact referenced_updateLocalCacheMarginBytes h bytes
  | updateLocalSyncedVictims bytes victims view =>
    simp only [step, bind_eq_some_iff, require_eq_some_iff] at hstep
    obtain ⟨-, hedge, t₁, h₁, heq⟩ := hstep
    cases heq
    exact referenced_updateLocalSyncedVictims h hedge hsound h₁
  | updateLocalBeaconedVictimDirinfo key isAdmit directoryInfo =>
    simp only [step, bind_eq_some_iff] at hstep
    obtain ⟨t₁, h₁, heq⟩ := hstep
    cases heq
    have hsame := sameTracking_updateLocalBeaconedVictimDirinfo h₁
    obtain ⟨hcounted, hrefcnt⟩ := counted_updateLocalBeaconedVictimDirinfo h.counted h₁
    refine h.congr hcounted hrefcnt (victimsOf_congr hsame.metadata) ?_
    rw [hsame.monitor]
    exact h.cached
  | getLocalVictimSyncsetForSynchronization dst bytes =>
    simp only [step, bind_eq_some_iff] at hstep
    obtain ⟨-, -, ⟨t₁, final⟩, h₁, heq⟩ := hstep
    cases heq
    obtain ⟨current, m, -, -, -, -, hreplace, rfl⟩ := getLocalVictimSyncset_cases h₁
    obtain ⟨-, rfl, -⟩ := VictimsyncMonitor.replacePrevVictimSyncset_cases hreplace
    refine h.setMonitor (fun s hs => ?_) dst
    exact h.cached dst s hs
  | updateForNeighborVictimSyncset source neighbor view =>
    simp only [step, bind_eq_some_iff, require_eq_some_iff] at hstep
    obtain ⟨-, hedge, t₁, h₁, heq⟩ := hstep
    cases heq
    exact referenced_updateForNeighborVictimSyncset h hedge hsound h₁
  | removeVictimsForGivenEdge edgeIdx keys =>
    simp only [step, bind_eq_some_iff, require_eq_some_iff] at hstep
    obtain ⟨-, hedge, t₁, h₁, heq⟩ := hstep
    cases heq
    exact referenced_removeVictimsForGivenEdge h hedge hsound h₁
  | dumpAndLoad =>
    simp only [step, bind_eq_some_iff] at hstep
    obtain ⟨d, hd, heq⟩ := hstep
    cases heq
    exact referenced_dumpAndLoad h hd _

theorem referenced_create (edgeIdx edgecnt syncedVictimcnt monitoredVictimsetcnt : Nat) :
    Referenced edgecnt (create edgeIdx edgecnt syncedVictimcnt monitoredVictimsetcnt) where
  counted := ⟨nodup_nil, by simp [create]⟩
  refcnt key := by simp [refcntOf, victimDirinfo, create, trackingEdges, Tracks, victimsOf]
  victims e := nodup_nil
  cached e := by simp [create]

end Operations

/-- After any sequence of operations of which no removal gives back a reference of another edge:
the directory infos of a key have as many references as there are edges that have the key as a
victim, and they are there iff there is such an edge. -/
theorem refcnt_exact {edgeIdx edgecnt syncedVictimcnt monitoredVictimsetcnt : Nat}
    {tr : List (Operation × Option VictimSyncset)} {t : VictimTracker}
    (h : Runs (step edgecnt) (fun t op => op.Sound edgecnt t)
      (create edgeIdx edgecnt syncedVictimcnt monitoredVictimsetcnt) tr t) (key : Key) :
    (∀ d, t.victimDirinfo key = some d → d.refcnt = (trackingEdges edgecnt t key).card) ∧
    ((t.victimDirinfo key).isSome = true ↔ 0 < (trackingEdges edgecnt t key).card) := by
  have href : Referenced edgecnt t := h.invariant (referenced_create _ _ _ _) referenced_step
  have hrefcnt := href.refcnt key
  constructor
  · intro d hd
    rw [refcntOf, hd] at hrefcnt
    exact hrefcnt
  · rw [href.counted.positive_iff, hrefcnt]

instance (s : VictimSyncset) : Decidable (ListsVictimsOnce s) :=
  inferInstanceAs (Decidable (¬ VictimSyncset.HasPart _ _ → List.Nodup _))

instance (edgecnt : Nat) (t : VictimTracker) : (op : Operation) → Decidable (op.Sound edgecnt t)
  | .updateLocalSyncedVictims .. => inferInstanceAs (Decidable (List.Nodup _))
  | .updateForNeighborVictimSyncset _ neighbor _ =>
      inferInstanceAs (Decidable (ListsVictimsOnce neighbor))
  | .removeVictimsForGivenEdge edgeIdx victimKeyset =>
      inferInstanceAs (Decidable (∀ key ∈ victimKeyset,
        (victimKeyset.count key = 1 ∧ t.Tracks edgeIdx key) ∨
        ∀ other < edgecnt, other ≠ edgeIdx → ¬ t.Tracks other key))
  | .updateLocalCacheMarginBytes .. => inferInstanceAs (Decidable True)
  | .updateLocalBeaconedVictimDirinfo .. => inferInstanceAs (Decidable True)
  | .getLocalVictimSyncsetForSynchronization .. => inferInstanceAs (Decidable True)
  | .dumpAndLoad => inferInstanceAs (Decidable True)

/-- Edge `1` is the beacon of every key and knows no copies. -/
def remoteBeacon : CooperationView := ⟨fun _ => 1, fun _ => []⟩

/-- A victim of two bytes. -/
def smallVictim : VictimCacheinfo := VictimCacheinfo.create ⟨[7]⟩ 2 1 0 1 0

/-- Both edges have the key as a victim, and a placement removes it from edge `1`. -/
theorem refcnt_exact_removed :
    ∃ tr t, Runs (step 2) (fun t op => op.Sound 2 t) (create 0 2 3 3) tr t ∧
      t.Tracks 0 ⟨[7]⟩ ∧ ¬ t.Tracks 1 ⟨[7]⟩ ∧
      ((t.victimDirinfo ⟨[7]⟩).isSome = true ↔ 0 < (trackingEdges 2 t ⟨[7]⟩).card) := by
  have hexec : (exec (step 2) (fun t op => op.Sound 2 t) (create 0 2 3 3)
      [.updateLocalSyncedVictims 10 [smallVictim] remoteBeacon,
        .updateForNeighborVictimSyncset 1 (.create 0 false 5 [smallVictim] []) remoteBeacon,
        .removeVictimsForGivenEdge 1 [⟨[7]⟩]]).any
      (fun t => decide (t.Tracks 0 ⟨[7]⟩) && !decide (t.Tracks 1 ⟨[7]⟩)) = true := by
    decide +kernel
  obtain ⟨tr, t, hrun, -, ht⟩ := exists_runs_of_any hexec
  rw [Bool.and_eq_true, decide_eq_true_eq, Bool.not_eq_true', decide_eq_false_iff_not] at ht
  exact ⟨tr, t, hrun, ht.1, ht.2, (refcnt_exact hrun ⟨[7]⟩).2⟩

/-- A placement names a key that edge `0` does not have as a victim any longer: the directory infos
of the key are dropped, although edge `1` has it as a victim. -/
theorem refcnt_lost :
    ∃ tr t, Runs (step 2) anyAction (create 0 2 3 3) tr t ∧
      t.Tracks 1 ⟨[7]⟩ ∧ 0 < (trackingEdges 2 t ⟨[7]⟩).card ∧
      t.victimDirinfo ⟨[7]⟩ = none := by
  have hexec : (exec (step 2) anyAction (create 0 2 3 3)
      [.updateLocalSyncedVictims 10 [] remoteBeacon,
        .updateForNeighborVictimSyncset 1 (.create 0 false 5 [smallVictim] []) remoteBeacon,
        .removeVictimsForGivenEdge 0 [⟨[7]⟩]]).any
      (fun t => decide (t.Tracks 1 ⟨[7]⟩) && (t.victimDirinfo ⟨[7]⟩).isNone) = true := by
    decide +kernel
  obtain ⟨tr, t, hrun, -, ht⟩ := exists_runs_of_any hexec
  rw [Bool.and_eq_true, decide_eq_true_eq, Option.isNone_iff_eq_none] at ht
  refine ⟨tr, t, hrun, ht.1, ?_, ht.2⟩
  apply Finset.card_pos.2
  exact ⟨1, Finset.mem_filter.2 ⟨Finset.mem_range.2 (by decide), ht.1⟩⟩

end Covered.Victim.VictimTracker
