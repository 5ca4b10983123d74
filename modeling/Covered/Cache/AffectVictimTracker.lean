import Covered.Cache.MetadataRepresentation

/-!
# Operations that do not affect the victim tracker

An operation on the metadata of the cached keys says whether it affects the victims that the edge
synchronizes, the first entries of the multimap. It does if its key is among them before or after
the operation. If it does not, the victim tracker is not refreshed.

`firstVictims_of_runs`: then nothing was lost. The operation changes the record and the place of its
own key only (`OnlyAffects`), so a list without the key is the same before and after it, and the
first entries are those of such a list.
-/

set_option autoImplicit false

namespace Covered.Cache.AffectVictimTracker

open Common Lib Lib.Checked Lib.Execution Lib.Simulation KeyedList List
open Option hiding bind_eq_some_iff

/-! ## The flag -/

/-- The metadata of the cached keys. -/
abbrev LocalCachedMetadata := CacheMetadataBase HeteroKeyLevelMetadata

namespace LocalCachedMetadata

/-- The loop over the first entries of the multimap. -/
def isWithinRank (targetKey : Key) : Nat → List (Reward × Key) → Bool
  | 0, _ => false
  | _ + 1, [] => false
  | targetLeastRewardRank + 1, pair :: rest =>
      if pair.2 = targetKey then true else isWithinRank targetKey targetLeastRewardRank rest

/-- `isWithinTargetLeastRewardRank_`, with which `isAffectVictimTracker_` answers. -/
def isAffectVictimTracker (s : LocalCachedMetadata) (key : Key) (peredgeSyncedVictimcnt : Nat) :
    Option Bool := do
  let entry ← s.getLookup key
  let _ ← s.sortedRewardMultimap.get entry.sortedRewardIter
  require (s.sortedRewardMultimap.toList.length > 0)
  return isWithinRank key peredgeSyncedVictimcnt s.sortedRewardMultimap.toList

/-- A new key; checked after it was added. -/
def addForNewKey (edge : EdgeContext) (s : LocalCachedMetadata) (key : Key) (value : Value)
    (peredgeSyncedVictimcnt : Nat) (isGlobalCached isNeighborCached : Bool)
    (addedLocalFrequency addedRedirectedFrequency : Nat) : Option (LocalCachedMetadata × Bool) := do
  let s ← s.addKey edge key value isGlobalCached isNeighborCached addedLocalFrequency
    addedRedirectedFrequency
  let affectVictimTracker ← isAffectVictimTracker s key peredgeSyncedVictimcnt
  return (s, affectVictimTracker)

/-- An existing key; checked before its update, and after it if it was not among the victims. -/
def updateStatsForExistingKey (s : LocalCachedMetadata) (key : Key) (peredgeSyncedVictimcnt : Nat)
    (update : LocalCachedMetadata → Option LocalCachedMetadata) :
    Option (LocalCachedMetadata × Bool) := do
  let wasVictim ← isAffectVictimTracker s key peredgeSyncedVictimcnt
  let s ← update s
  if wasVictim then return (s, true)
  else
    let isVictim ← isAffectVictimTracker s key peredgeSyncedVictimcnt
    return (s, isVictim)

end LocalCachedMetadata

/-- The operations of the cached metadata; those that check the victims have their number. -/
inductive LocalCachedOperation where
  | addForNewKey (edge : EdgeContext) (key : Key) (value : Value) (peredgeSyncedVictimcnt : Nat)
      (isGlobalCached isNeighborCached : Bool)
      (addedLocalFrequency addedRedirectedFrequency : Nat)
  | updateNoValueStatsForExistingKey (edge : EdgeContext) (key : Key)
      (peredgeSyncedVictimcnt : Nat) (isRedirected isGlobalCached : Bool)
  | updateNoValueStatsForExistingKeyP2p (edge : EdgeContext) (key : Key)
      (peredgeSyncedVictimcnt : Nat) (isRedirected isGlobalCached : Bool) (redirectedReward : Nat)
  | updateValueStatsForExistingKey (edge : EdgeContext) (key : Key) (value originalValue : Value)
      (peredgeSyncedVictimcnt : Nat)
  | removeForExistingKey (key : Key)
  | updateIsNeighborCachedForExistingKey (key : Key) (isNeighborCached : Bool)

namespace LocalCachedOperation

/-- The number of victims that an operation looks at. -/
def peredgeSyncedVictimcnt : LocalCachedOperation → Nat
  | .addForNewKey _ _ _ n _ _ _ _ => n
  | .updateNoValueStatsForExistingKey _ _ n _ _ => n
  | .updateNoValueStatsForExistingKeyP2p _ _ n _ _ _ => n
  | .updateValueStatsForExistingKey _ _ _ _ n => n
  | .removeForExistingKey _ => 0
  | .updateIsNeighborCachedForExistingKey _ _ => 0

end LocalCachedOperation

namespace LocalCachedMetadata

/-- One operation, with whether it affects the victim tracker if it says so. -/
def step (s : LocalCachedMetadata) (o : LocalCachedOperation) :
    Option (LocalCachedMetadata × Option Bool) :=
  match o with
  | .addForNewKey edge key value n isGlobalCached isNeighborCached added addedRedirected =>
      (addForNewKey edge s key value n isGlobalCached isNeighborCached added addedRedirected).map
        fun r => (r.1, some r.2)
  | .updateNoValueStatsForExistingKey edge key n isRedirected isGlobalCached =>
      (updateStatsForExistingKey s key n fun s =>
        s.updateNoValueStatsForExistingKey edge key isRedirected isGlobalCached).map
        fun r => (r.1, some r.2)
  | .updateNoValueStatsForExistingKeyP2p edge key n isRedirected isGlobalCached redirectedReward =>
      (updateStatsForExistingKey s key n fun s =>
        s.updateNoValueStatsForExistingKeyP2p edge key isRedirected isGlobalCached
          redirectedReward).map fun r => (r.1, some r.2)
  | .updateValueStatsForExistingKey edge key value originalValue n =>
      (updateStatsForExistingKey s key n fun s =>
        s.updateValueStatsForExistingKey edge key value originalValue).map fun r => (r.1, some r.2)
  | .removeForExistingKey key => (s.removeForExistingKey key).map (·, none)
  | .updateIsNeighborCachedForExistingKey key isNeighborCached =>
      (s.updateIsNeighborCachedForExistingKey key isNeighborCached).map (·, none)

/-! ## The victims -/

/-- What the victim tracker is told about a victim. -/
structure VictimInfo where
  key : Key
  reward : Reward
  objectSize : Nat
  localCachedPopularity : Popularity
  redirectedCachedPopularity : Popularity
  redirectedCachedRewardPopularity : Popularity
deriving DecidableEq

/-- The information about an entry of the multimap. -/
def victimInfo (s : LocalCachedMetadata) (pair : Reward × Key) : Option VictimInfo := do
  let metadata ← s.getkeyLevelMetadata pair.2
  return {
    key := pair.2
    reward := pair.1
    objectSize := metadata.base.objectSize
    localCachedPopularity := metadata.base.localPopularity
    redirectedCachedPopularity := metadata.redirectedPopularity
    redirectedCachedRewardPopularity := metadata.redirectedRewardPopularity }

/-- The first entries of the multimap. -/
def firstVictims (s : LocalCachedMetadata) (n : Nat) : List (Option VictimInfo) :=
  (s.sortedRewardMultimap.toList.take n).map (victimInfo s)

end LocalCachedMetadata

/-! ## The first entries of a list -/

section Take

variable {α κ : Type} [DecidableEq κ] {f : α → κ} {k : κ} {l l' : List α} {n : Nat}

/-- The first entries are those of the list without a key that is not among them. -/
theorem take_eq_take_filter (h : k ∉ (l.take n).map f) :
    l.take n = (l.filter fun a => decide (f a ≠ k)).take n := by
  induction l generalizing n with
  | nil => rfl
  | cons a rest ih =>
    cases n with
    | zero => rfl
    | succ n =>
      rw [take_succ_cons, map_cons, mem_cons, not_or] at h
      rw [filter_cons, if_pos (decide_eq_true (Ne.symm h.1)), take_succ_cons,
        take_succ_cons, ih h.2]

/-- The first entries are the same if the lists are without a key that is not among them. -/
theorem take_eq_take (hfilter : l.filter (fun a => decide (f a ≠ k)) =
      l'.filter fun a => decide (f a ≠ k))
    (h : k ∉ (l.take n).map f) (h' : k ∉ (l'.take n).map f) : l.take n = l'.take n := by
  rw [take_eq_take_filter h, take_eq_take_filter h', hfilter]

theorem filter_orderedInsert (r : α → α → Prop) [DecidableRel r] {a : α} (h : f a = k) :
    (l.orderedInsert r a).filter (fun b => decide (f b ≠ k)) =
      l.filter fun b => decide (f b ≠ k) := by
  have hnot : ¬ decide (f a ≠ k) = true := by
    rw [decide_eq_true_iff]
    exact not_not_intro h
  induction l with
  | nil => exact filter_cons_of_neg hnot
  | cons b rest ih =>
    rw [orderedInsert_cons]
    split
    · exact filter_cons_of_neg hnot
    · rw [filter_cons, filter_cons, ih]

theorem filter_erase : (erase f k l).filter (fun b => decide (f b ≠ k)) =
    l.filter fun b => decide (f b ≠ k) := by
  induction l with
  | nil => rfl
  | cons b rest ih =>
    rw [erase] at ih
    rw [erase, eraseP_cons]
    by_cases hb : f b = k
    · rw [decide_eq_true hb, cond_true, filter_cons, if_neg]
      rw [decide_eq_true_iff]
      exact not_not_intro hb
    · rw [decide_eq_false hb, cond_false, filter_cons, filter_cons, ih]

end Take

/-! ## An operation affects its key only -/

/-- The records and the order of the other keys are unchanged. -/
structure OnlyAffects {T : Type} (v v' : TrackedKeys T) (key : Key) : Prop where
  rewards : v'.rewards.filter (fun pair => decide (pair.2 ≠ key)) =
    v.rewards.filter fun pair => decide (pair.2 ≠ key)
  record : ∀ k, k ≠ key → v'.record k = v.record k

namespace OnlyAffects

variable {T : Type} {v v' v'' : TrackedKeys T} {key : Key} {t : T}

theorem trans (h : OnlyAffects v v' key) (h' : OnlyAffects v' v'' key) : OnlyAffects v v'' key where
  rewards := h'.rewards.trans h.rewards
  record k hk := (h'.record k hk).trans (h.record k hk)

theorem setRecord : OnlyAffects v (v.setRecord key t) key where
  rewards := rfl
  record k hk := by
    have hfind : find Prod.fst k (replace Prod.fst key (key, t) v.lru) =
        if k = key then (find Prod.fst key v.lru).map fun _ => (key, t)
        else find Prod.fst k v.lru := find_replace rfl
    rw [if_neg hk] at hfind
    exact congrArg (Option.map Prod.snd) hfind

theorem moveToFront : OnlyAffects v (v.moveToFront key) key where
  rewards := rfl
  record k _ := by
    apply ext
    intro t
    rw [LruRecords.record_eq_some_iff, LruRecords.record_eq_some_iff]
    exact (v.perm_recordsFrom key).mem_iff

theorem setReward (r : Reward) : OnlyAffects v (v.setReward key r) key where
  rewards := by
    show (v.rewardsWith key r).filter _ = _
    rw [TrackedKeys.rewardsWith]
    split
    · rfl
    · have herase : (erase Prod.snd key v.rewards).filter
          (fun pair => decide (pair.2 ≠ key)) =
          v.rewards.filter fun pair => decide (pair.2 ≠ key) := filter_erase
      exact (filter_orderedInsert (f := Prod.snd) (a := (r, key)) _ rfl).trans herase
  record _ _ := rfl

theorem insertKey {r : Reward} (hnew : key ∉ v.keys)
    (hbytes : bytesOfKeys v.keys + key.getKeyLength < uint64Limit) :
    OnlyAffects v (v.insertKey key t r hnew hbytes) key where
  rewards := filter_orderedInsert (f := Prod.snd) _ rfl
  record k hk := by
    have hfind : find Prod.fst k ((key, t) :: v.lru) =
        if key = k then some (key, t) else find Prod.fst k v.lru :=
      find_cons
    rw [if_neg (Ne.symm hk)] at hfind
    exact congrArg (Option.map Prod.snd) hfind

variable [KeyLevelMetadata T] {edge : EdgeContext} {update : T → Option T}

theorem updatePopularityAndReward (h : v.updatePopularityAndReward edge key t = some v') :
    OnlyAffects v v' key := by
  simp only [TrackedKeys.updatePopularityAndReward, bind_eq_some_iff, pure_eq_some_iff] at h
  obtain ⟨u, -, rfl⟩ := h
  exact setRecord.trans (setReward _)

theorem updateNoValueStats (h : v.updateNoValueStats edge key update = some v') :
    OnlyAffects v v' key := by
  simp only [TrackedKeys.updateNoValueStats, bind_eq_some_iff] at h
  obtain ⟨t, -, u, -, h⟩ := h
  exact (setRecord.trans moveToFront).trans (updatePopularityAndReward h)

theorem updateInPlace (h : v.updateInPlace edge key update = some v') :
    OnlyAffects v v' key := by
  simp only [TrackedKeys.updateInPlace, bind_eq_some_iff] at h
  obtain ⟨t, -, u, -, h⟩ := h
  exact setRecord.trans (updatePopularityAndReward h)

end OnlyAffects

/-! ## Every run -/

namespace LocalCachedMetadata

section Runs

variable {s s' : LocalCachedMetadata} {v v' : TrackedKeys HeteroKeyLevelMetadata} {key : Key}
variable {n : Nat}

theorem isWithinRank_iff {rewards : List (Reward × Key)} :
    isWithinRank key n rewards = true ↔ key ∈ (rewards.take n).map Prod.snd := by
  induction n generalizing rewards with
  | zero =>
    rw [take_zero]
    exact iff_of_false Bool.false_ne_true not_mem_nil
  | succ n ih =>
    cases rewards with
    | nil => exact iff_of_false Bool.false_ne_true not_mem_nil
    | cons pair rest =>
      rw [isWithinRank, take_succ_cons, map_cons, mem_cons]
      split
      · next heq => exact iff_of_true rfl (.inl heq.symm)
      · next hne => exact ih.trans (or_iff_right (Ne.symm hne)).symm

/-- A key that does not affect the tracker is not among the first entries. -/
theorem notMem_of_isAffectVictimTracker (h : Represents s v)
    (hflag : isAffectVictimTracker s key n = some false) :
    key ∉ (v.rewards.take n).map Prod.snd := by
  simp only [isAffectVictimTracker, bind_eq_some_iff, pure_eq_some_iff] at hflag
  obtain ⟨_, -, _, -, -, -, hwithin⟩ := hflag
  rw [h.multimap] at hwithin
  intro hmem
  rw [isWithinRank_iff.2 hmem] at hwithin
  exact Bool.true_eq_false.mp hwithin

/-- An operation that changes one key outside the first entries changes none of them. -/
theorem firstVictims_eq (h : Represents s v) (h' : Represents s' v') (honly : OnlyAffects v v' key)
    (hbefore : key ∉ (v.rewards.take n).map Prod.snd)
    (hafter : key ∉ (v'.rewards.take n).map Prod.snd) : firstVictims s' n = firstVictims s n := by
  have htake : v'.rewards.take n = v.rewards.take n :=
    take_eq_take (f := Prod.snd) honly.rewards hafter hbefore
  rw [firstVictims, firstVictims, h.multimap, h'.multimap, htake]
  apply map_congr_left
  intro pair hpair
  have hne : pair.2 ≠ key := fun heq => hbefore (heq ▸ mem_map_of_mem hpair)
  rw [victimInfo, victimInfo, h.getkeyLevelMetadata, h'.getkeyLevelMetadata,
    honly.record pair.2 hne]

/-- A new key was not among the entries before. -/
theorem addForNewKey_spec (h : Represents s v) {edge : EdgeContext} {value : Value}
    {isGlobalCached isNeighborCached flag : Bool} {added addedRedirected : Nat}
    (hadd : addForNewKey edge s key value n isGlobalCached isNeighborCached added addedRedirected =
      some (s', flag)) :
    (∃ v', Represents s' v') ∧ (flag = false → firstVictims s' n = firstVictims s n) := by
  simp only [addForNewKey, bind_eq_some_iff, pure_eq_some_iff, Prod.mk.injEq] at hadd
  obtain ⟨_, hkey, _, hflag, rfl, rfl⟩ := hadd
  obtain ⟨v', hkey', h'⟩ := exists_of_rel
    (h.addKey edge key value isGlobalCached isNeighborCached added addedRedirected) hkey
  refine ⟨⟨v', h'⟩, ?_⟩
  rintro rfl
  rw [TrackedKeys.addKey] at hkey'
  split at hkey'
  · next hnew =>
    simp only [bind_eq_some_iff, pure_eq_some_iff] at hkey'
    obtain ⟨t, -, rfl⟩ := hkey'
    refine firstVictims_eq h h' (.insertKey hnew.1 hnew.2) ?_
      (notMem_of_isAffectVictimTracker h' hflag)
    intro hmem
    exact hnew.1 (v.perm.mem_iff.1 ((take_sublist n v.rewards).map Prod.snd |>.subset hmem))
  · cases hkey'

/-- An existing key was looked up before and after its update. -/
theorem updateStats_spec (h : Represents s v)
    {update : LocalCachedMetadata → Option LocalCachedMetadata}
    {y : Option (TrackedKeys HeteroKeyLevelMetadata)} {flag : Bool}
    (hrel : Option.Rel Represents (update s) y) (honly : ∀ v', y = some v' → OnlyAffects v v' key)
    (hupdate : updateStatsForExistingKey s key n update = some (s', flag)) :
    (∃ v', Represents s' v') ∧ (flag = false → firstVictims s' n = firstVictims s n) := by
  simp only [updateStatsForExistingKey, bind_eq_bind, Option.bind_eq_some_iff] at hupdate
  obtain ⟨wasVictim, hbefore, u, hu, hupdate⟩ := hupdate
  obtain ⟨v', hv', h'⟩ := exists_of_rel hrel hu
  cases wasVictim with
  | true =>
    cases hupdate
    exact ⟨⟨v', h'⟩, fun hflag => nomatch hflag⟩
  | false =>
    simp only [Bool.false_eq_true, if_false, Option.bind_eq_some_iff, pure_eq_some_iff,
      Prod.mk.injEq] at hupdate
    obtain ⟨_, hafter, rfl, rfl⟩ := hupdate
    refine ⟨⟨v', h'⟩, ?_⟩
    rintro rfl
    exact firstVictims_eq h h' (honly v' hv') (notMem_of_isAffectVictimTracker h hbefore)
      (notMem_of_isAffectVictimTracker h' hafter)

/-- An update of a key with its counterpart on the tracked keys. -/
theorem updateNoValueStats_rel (h : Represents s v) (edge : EdgeContext) (key : Key)
    (isRedirected isGlobalCached : Bool) (added addedRedirected : Nat) :
    Option.Rel Represents
      (s.updateNoValueStats edge key fun metadata =>
        KeyLevelMetadata.updateNoValueDynamicMetadata metadata isRedirected isGlobalCached added
          addedRedirected)
      (v.updateNoValueStats edge key fun metadata =>
        KeyLevelMetadata.updateNoValueDynamicMetadata metadata isRedirected isGlobalCached added
          addedRedirected) :=
  h.updateNoValueStats edge key fun _ _ ht => (KeyLevelMetadata.noValue_keeps ht).1

/-- Every operation keeps the representation, and one that does not affect the victim tracker keeps
the first victims. -/
theorem step_spec (h : Represents s v) {o : LocalCachedOperation} {out : Option Bool}
    (hstep : step s o = some (s', out)) : (∃ v', Represents s' v') ∧
      (out = some false →
        firstVictims s' o.peredgeSyncedVictimcnt = firstVictims s o.peredgeSyncedVictimcnt) := by
  cases o with
  | addForNewKey edge key value n isGlobalCached isNeighborCached added addedRedirected =>
    obtain ⟨⟨u, flag⟩, hadd, heq⟩ := map_eq_some_iff.1 hstep
    cases heq
    obtain ⟨hrep, hsame⟩ := addForNewKey_spec h hadd
    exact ⟨hrep, fun hflag => hsame (some.inj hflag)⟩
  | updateNoValueStatsForExistingKey edge key n isRedirected isGlobalCached =>
    obtain ⟨⟨u, flag⟩, hupdate, heq⟩ := map_eq_some_iff.1 hstep
    cases heq
    have hrel := updateNoValueStats_rel h edge key isRedirected isGlobalCached 1 1
    obtain ⟨hrep, hsame⟩ :=
      updateStats_spec h hrel (fun _ => OnlyAffects.updateNoValueStats) hupdate
    exact ⟨hrep, fun hflag => hsame (some.inj hflag)⟩
  | updateNoValueStatsForExistingKeyP2p edge key n isRedirected isGlobalCached redirectedReward =>
    obtain ⟨⟨u, flag⟩, hupdate, heq⟩ := map_eq_some_iff.1 hstep
    cases heq
    have hnoValue :=
      updateNoValueStats_rel h edge key isRedirected isGlobalCached 0 redirectedReward
    have hrel : Option.Rel Represents
        (s.updateNoValueStatsForExistingKeyP2p edge key isRedirected isGlobalCached
          redirectedReward)
        ((require (isRedirected = true)).bind fun _ => v.updateNoValueStats edge key fun metadata =>
          KeyLevelMetadata.updateNoValueDynamicMetadata metadata isRedirected isGlobalCached 0
            redirectedReward) :=
      rel_require_bind Iff.rfl fun _ => hnoValue
    obtain ⟨hrep, hsame⟩ := updateStats_spec h hrel
      (fun _ hv' => OnlyAffects.updateNoValueStats (require_bind_iff.1 hv').2)
      hupdate
    exact ⟨hrep, fun hflag => hsame (some.inj hflag)⟩
  | updateValueStatsForExistingKey edge key value originalValue n =>
    obtain ⟨⟨u, flag⟩, hupdate, heq⟩ := map_eq_some_iff.1 hstep
    cases heq
    have hrel := h.updateValueStatsForExistingKey edge key value originalValue
    obtain ⟨hrep, hsame⟩ := updateStats_spec h hrel (fun _ => OnlyAffects.updateInPlace) hupdate
    exact ⟨hrep, fun hflag => hsame (some.inj hflag)⟩
  | removeForExistingKey key =>
    obtain ⟨u, hremove, heq⟩ := map_eq_some_iff.1 hstep
    cases heq
    obtain ⟨v', -, h'⟩ := exists_of_rel (h.removeForExistingKey key) hremove
    exact ⟨⟨v', h'⟩, fun hflag => nomatch hflag⟩
  | updateIsNeighborCachedForExistingKey key isNeighborCached =>
    obtain ⟨u, hupdate, heq⟩ := map_eq_some_iff.1 hstep
    cases heq
    obtain ⟨v', -, h'⟩ := exists_of_rel (h.updateIsNeighborCached key isNeighborCached) hupdate
    exact ⟨⟨v', h'⟩, fun hflag => nomatch hflag⟩

/-- In every reachable state an operation that does not affect the victim tracker keeps the first
victims, with all that the tracker is told about them. -/
theorem firstVictims_of_runs {tr : List (LocalCachedOperation × Option Bool)}
    (h : Runs step anyAction CacheMetadataBase.empty tr s) {o : LocalCachedOperation}
    (hstep : step s o = some (s', some false)) :
    firstVictims s' o.peredgeSyncedVictimcnt = firstVictims s o.peredgeSyncedVictimcnt := by
  have hinv : ∃ v, Represents s v := by
    refine h.invariant (P := fun s => ∃ v, Represents s v) ⟨.empty, .empty⟩ ?_
    rintro s o s' out ⟨v, hrep⟩ - hstep
    exact (step_spec hrep hstep).1
  obtain ⟨v, hrep⟩ := hinv
  exact (step_spec hrep hstep).2 rfl

end Runs

/-- The edge of the example. -/
def quietEdge : EdgeContext := { weights := ⟨2, 1⟩ }

/-- Three keys of which the last one is accessed again. -/
def threeKeys : List LocalCachedOperation :=
  [.addForNewKey quietEdge ⟨[1]⟩ (.ofSize 3) 1 true false 1 0,
    .addForNewKey quietEdge ⟨[2]⟩ (.ofSize 3) 1 true false 2 0,
    .addForNewKey quietEdge ⟨[3]⟩ (.ofSize 3) 1 true false 3 0]

/-- An access to the third key does not affect the first victim. -/
theorem firstVictims_threeKeys : ∃ tr s s',
    Runs step anyAction CacheMetadataBase.empty tr s ∧
    step s (.updateNoValueStatsForExistingKey quietEdge ⟨[3]⟩ 1 false true) =
      some (s', some false) ∧ firstVictims s' 1 = firstVictims s 1 := by
  have hexec : (exec step anyAction CacheMetadataBase.empty threeKeys).any (fun s =>
      (step s (.updateNoValueStatsForExistingKey quietEdge ⟨[3]⟩ 1 false true)).any
        fun r => decide (r.2 = some false)) = true := by
    decide +kernel
  obtain ⟨tr, s, hrun, -, hstep⟩ := exists_runs_of_any hexec
  obtain ⟨⟨s', out⟩, hsome, hout⟩ := Option.any_eq_true _ _ |>.1 hstep
  obtain rfl : out = some false := of_decide_eq_true hout
  exact ⟨tr, s, s', hrun, hsome, firstVictims_of_runs hrun hsome⟩

end LocalCachedMetadata

end Covered.Cache.AffectVictimTracker
