import Covered.Victim.DeltaCompression

/-!
# Round trips of victim syncsets

`CompressOf` says what `compress` makes of each part and `RecoverOf` what `recover` makes of it.
The receiver need not hold the previous syncset of the sender itself: `roundTrip_spec` is stated for
any existing syncset, and what the recovered one has in common with the current one follows from
what the existing one had in common with the previous one.

`lossless` is the round trip over the previous syncset itself.
-/

set_option autoImplicit false

namespace Covered.Victim

open Common Cooperation Lib Lib.Checked Lib.SortBy KeyedList VictimCacheinfo

namespace VictimSyncset

/-! ## Compression of a syncset -/

/-- What a compressed syncset says about each part of the current one. -/
structure CompressOf (current prev c : VictimSyncset) : Prop where
  seqnum : c.seqnum = current.seqnum
  enforce : c.isEnforceComplete = current.isEnforceComplete
  complete : c.isComplete = true → c = current
  margin : (¬ c.PartCompressed .cacheMarginBytes ∧
      c.cacheMarginBytes = current.cacheMarginBytes) ∨
    (c.PartCompressed .cacheMarginBytes ∧
      cacheMarginDelta current.cacheMarginBytes prev.cacheMarginBytes =
        some c.cacheMarginDeltaBytes)
  synced : (¬ c.PartCompressed .localSyncedVictims ∧
      c.localSyncedVictims = current.localSyncedVictims) ∨
    (c.PartCompressed .localSyncedVictims ∧
      ∃ messages, compressVictims prev.localSyncedVictims current.localSyncedVictims =
          some messages ∧
        c.localSyncedVictims =
          messages ++ staleVictims current.localSyncedVictims prev.localSyncedVictims)
  beaconed : (¬ c.PartCompressed .localBeaconedVictims ∧
      c.localBeaconedVictims = current.localBeaconedVictims) ∨
    (c.PartCompressed .localBeaconedVictims ∧
      compressDirinfos prev.localBeaconedVictims current.localBeaconedVictims =
        some c.localBeaconedVictims)

section Compress

variable {current prev c s : VictimSyncset}

theorem not_isComplete_of_part (part : SyncsetPart) (h : s.PartCompressed part) :
    ¬ s.isComplete = true := by
  intro hcomplete
  exact (isComplete_iff s).1 hcomplete part h

theorem compressOf_self (h : current.AllComplete) (prev : VictimSyncset) :
    CompressOf current prev current where
  seqnum := rfl
  enforce := rfl
  complete := fun _ => rfl
  margin := .inl ⟨h.not_part _, rfl⟩
  synced := .inl ⟨h.not_part _, rfl⟩
  beaconed := .inl ⟨h.not_part _, rfl⟩

theorem CompressOf.setCacheMarginDeltaBytes (h : CompressOf current prev c) {delta : Int}
    (hdelta : cacheMarginDelta current.cacheMarginBytes prev.cacheMarginBytes = some delta) :
    CompressOf current prev (c.setCacheMarginDeltaBytes delta) where
  seqnum := h.seqnum
  enforce := h.enforce
  complete := by
    intro hcomplete
    exact absurd hcomplete (not_isComplete_of_part .cacheMarginBytes (by simp))
  margin := .inr ⟨by simp, hdelta⟩
  synced := by
    simp only [part_setCacheMarginDeltaBytes, reduceCtorEq, false_or]
    exact h.synced
  beaconed := by
    simp only [part_setCacheMarginDeltaBytes, reduceCtorEq, false_or]
    exact h.beaconed

theorem CompressOf.setLocalSyncedVictimsForCompress (h : CompressOf current prev c)
    {messages : List VictimCacheinfo}
    (hmessages : compressVictims prev.localSyncedVictims current.localSyncedVictims =
      some messages) :
    CompressOf current prev (c.setLocalSyncedVictimsForCompress
      (messages ++ staleVictims current.localSyncedVictims prev.localSyncedVictims)) where
  seqnum := h.seqnum
  enforce := h.enforce
  complete := by
    intro hcomplete
    exact absurd hcomplete (not_isComplete_of_part .localSyncedVictims (by simp))
  margin := by
    simp only [part_setLocalSyncedVictimsForCompress, reduceCtorEq, false_or]
    exact h.margin
  synced := .inr ⟨by simp, messages, hmessages, rfl⟩
  beaconed := by
    simp only [part_setLocalSyncedVictimsForCompress, reduceCtorEq, false_or]
    exact h.beaconed

theorem CompressOf.setLocalBeaconedVictimsForCompress (h : CompressOf current prev c)
    {messages : List (Key × DirinfoSet)}
    (hmessages : compressDirinfos prev.localBeaconedVictims current.localBeaconedVictims =
      some messages) :
    CompressOf current prev (c.setLocalBeaconedVictimsForCompress messages) where
  seqnum := h.seqnum
  enforce := h.enforce
  complete := by
    intro hcomplete
    exact absurd hcomplete (not_isComplete_of_part .localBeaconedVictims (by simp))
  margin := by
    simp only [part_setLocalBeaconedVictimsForCompress, reduceCtorEq, false_or]
    exact h.margin
  synced := by
    simp only [part_setLocalBeaconedVictimsForCompress, reduceCtorEq, false_or]
    exact h.synced
  beaconed := .inr ⟨by simp, hmessages⟩

theorem compressOf_cacheMarginBytes (h : CompressOf current prev c) :
    CompressOf current prev (compressCacheMarginBytes c current prev) := by
  unfold compressCacheMarginBytes
  cases hdelta : cacheMarginDelta current.cacheMarginBytes prev.cacheMarginBytes with
  | none => exact h
  | some delta => exact h.setCacheMarginDeltaBytes hdelta

theorem getLocalSyncedVictims_eq (h : s.AllComplete) :
    s.getLocalSyncedVictims = (s.localSyncedVictims, true) := by
  have hnot := h.not_part .localSyncedVictims
  rw [PartCompressed] at hnot
  simp [getLocalSyncedVictims, hnot]

theorem getLocalBeaconedVictims_eq (h : s.AllComplete) :
    s.getLocalBeaconedVictims = (s.localBeaconedVictims, true) := by
  have hnot := h.not_part .localBeaconedVictims
  rw [PartCompressed] at hnot
  simp [getLocalBeaconedVictims, hnot]

theorem compressLocalSyncedVictims_spec (hcur : current.AllComplete) (hprev : prev.AllComplete)
    (h : CompressOf current prev c) :
    ∃ s, compressLocalSyncedVictims c current prev = some s ∧ CompressOf current prev s := by
  obtain ⟨messages, hmessages, -⟩ := KeyedList.collect_isSome
    (compressVictim prev.localSyncedVictims) (l := current.localSyncedVictims)
    fun v hv => compressVictim_isSome hprev.victims (hcur.victims v hv)
  simp only [compressLocalSyncedVictims, getLocalSyncedVictims_eq hcur,
    getLocalSyncedVictims_eq hprev, compressVictims, hmessages, some_bind,
    Option.pure_def]
  refine ⟨_, rfl, ?_⟩
  split
  · exact h
  · exact h.setLocalSyncedVictimsForCompress hmessages

theorem compressLocalBeaconedVictims_spec (hcur : current.AllComplete) (hprev : prev.AllComplete)
    (h : CompressOf current prev c) :
    ∃ s, compressLocalBeaconedVictims c current prev = some s ∧ CompressOf current prev s := by
  obtain ⟨messages, hmessages, -⟩ := KeyedList.collect_isSome
    (compressDirinfo prev.localBeaconedVictims) (l := current.localBeaconedVictims)
    fun pair hpair => compressDirinfo_isSome hprev.dirinfos (hcur.dirinfos pair hpair)
  simp only [compressLocalBeaconedVictims, getLocalBeaconedVictims_eq hcur,
    getLocalBeaconedVictims_eq hprev, compressDirinfos, hmessages, some_bind,
    Option.pure_def]
  refine ⟨_, rfl, ?_⟩
  split
  · exact h
  · exact h.setLocalBeaconedVictimsForCompress hmessages

/-- Compression of consecutive complete syncsets does not abort. -/
theorem compress_spec (hcur : current.AllComplete) (hprev : prev.AllComplete)
    (hseqnum : current.seqnum = prev.seqnum + 1) (hlimit : current.seqnum < uint64Limit) :
    ∃ c, compress current prev = some c ∧ CompressOf current prev c := by
  have h₁ := compressOf_cacheMarginBytes (compressOf_self hcur prev)
  obtain ⟨s₂, hs₂, h₂⟩ := compressLocalSyncedVictims_spec hcur hprev h₁
  obtain ⟨s₃, hs₃, h₃⟩ := compressLocalBeaconedVictims_spec hcur hprev h₂
  have hnext : uint64Add prev.seqnum 1 = some (prev.seqnum + 1) := uint64Add_eq (by omega)
  simp only [compress, require_bind hcur.complete, require_bind hprev.complete, hnext, some_bind,
    require_bind hseqnum, hs₂, hs₃, Option.pure_def]
  refine ⟨_, rfl, ?_⟩
  split
  · exact h₃
  · -- the compressed syncset is not smaller
    exact compressOf_self hcur prev

end Compress

/-! ## Recovery of a syncset -/

/-- What a recovered syncset has for each part of a compressed one. -/
structure RecoverOf (c existing r : VictimSyncset) : Prop where
  complete : r.isComplete = true
  seqnum : r.seqnum = c.seqnum
  enforce : r.isEnforceComplete = c.isEnforceComplete
  margin : (¬ c.PartCompressed .cacheMarginBytes ∧ r.cacheMarginBytes = c.cacheMarginBytes) ∨
    (c.PartCompressed .cacheMarginBytes ∧
      applyCacheMarginDelta existing.cacheMarginBytes c.cacheMarginDeltaBytes =
        some r.cacheMarginBytes)
  synced : (¬ c.PartCompressed .localSyncedVictims ∧
      r.localSyncedVictims = c.localSyncedVictims) ∨
    (c.PartCompressed .localSyncedVictims ∧
      ∃ victims, applyVictims existing.localSyncedVictims c.localSyncedVictims = some victims ∧
        r.localSyncedVictims = VictimCacheinfo.sortByLocalRewards victims)
  beaconed : (¬ c.PartCompressed .localBeaconedVictims ∧
      r.localBeaconedVictims = c.localBeaconedVictims) ∨
    (c.PartCompressed .localBeaconedVictims ∧
      applyDirinfos existing.localBeaconedVictims c.localBeaconedVictims =
        some r.localBeaconedVictims)

section Recover

variable {c existing s : VictimSyncset}

theorem recoverCacheMarginBytes_spec (hexisting : existing.AllComplete)
    (happly : c.PartCompressed .cacheMarginBytes →
      ∃ bytes, applyCacheMarginDelta existing.cacheMarginBytes c.cacheMarginDeltaBytes =
        some bytes) :
    ∃ s', recoverCacheMarginBytes s c existing = some s' ∧
      ((¬ c.PartCompressed .cacheMarginBytes ∧ s' = s) ∨
        (c.PartCompressed .cacheMarginBytes ∧
          ∃ bytes, applyCacheMarginDelta existing.cacheMarginBytes c.cacheMarginDeltaBytes =
            some bytes ∧ s' = s.setCacheMarginBytes bytes)) := by
  have hnot := hexisting.not_part .cacheMarginBytes
  by_cases hpart : c.PartCompressed .cacheMarginBytes
  · obtain ⟨bytes, hbytes⟩ := happly hpart
    refine ⟨s.setCacheMarginBytes bytes, ?_, .inr ⟨hpart, bytes, hbytes, rfl⟩⟩
    rw [PartCompressed] at hnot hpart
    simp [recoverCacheMarginBytes, getCacheMarginBytesOrDelta, hpart, hnot, hbytes]
  · refine ⟨s, ?_, .inl ⟨hpart, rfl⟩⟩
    rw [PartCompressed] at hpart
    simp [recoverCacheMarginBytes, getCacheMarginBytesOrDelta, hpart]

theorem recoverLocalSyncedVictims_spec (hexisting : existing.AllComplete)
    (happly : c.PartCompressed .localSyncedVictims →
      ∃ victims, applyVictims existing.localSyncedVictims c.localSyncedVictims = some victims) :
    ∃ s', recoverLocalSyncedVictims s c existing = some s' ∧
      ((¬ c.PartCompressed .localSyncedVictims ∧ s' = s) ∨
        (c.PartCompressed .localSyncedVictims ∧
          ∃ victims, applyVictims existing.localSyncedVictims c.localSyncedVictims =
            some victims ∧
            s' = s.setLocalSyncedVictims (sortByLocalRewards victims))) := by
  by_cases hpart : c.PartCompressed .localSyncedVictims
  · obtain ⟨victims, hvictims⟩ := happly hpart
    refine ⟨_, ?_, .inr ⟨hpart, victims, hvictims, rfl⟩⟩
    have hget : c.getLocalSyncedVictims = (c.localSyncedVictims, false) := by
      rw [PartCompressed] at hpart
      simp [getLocalSyncedVictims, hpart]
    simp [recoverLocalSyncedVictims, hget, getLocalSyncedVictims_eq hexisting, hvictims,
      require]
  · refine ⟨s, ?_, .inl ⟨hpart, rfl⟩⟩
    rw [PartCompressed] at hpart
    simp [recoverLocalSyncedVictims, getLocalSyncedVictims, hpart]

theorem recoverLocalBeaconedVictims_spec (hexisting : existing.AllComplete)
    (happly : c.PartCompressed .localBeaconedVictims →
      ∃ dirinfos, applyDirinfos existing.localBeaconedVictims c.localBeaconedVictims =
        some dirinfos) :
    ∃ s', recoverLocalBeaconedVictims s c existing = some s' ∧
      ((¬ c.PartCompressed .localBeaconedVictims ∧ s' = s) ∨
        (c.PartCompressed .localBeaconedVictims ∧
          ∃ dirinfos, applyDirinfos existing.localBeaconedVictims c.localBeaconedVictims =
            some dirinfos ∧ s' = s.setLocalBeaconedVictims dirinfos)) := by
  by_cases hpart : c.PartCompressed .localBeaconedVictims
  · obtain ⟨dirinfos, hdirinfos⟩ := happly hpart
    refine ⟨_, ?_, .inr ⟨hpart, dirinfos, hdirinfos, rfl⟩⟩
    have hget : c.getLocalBeaconedVictims = (c.localBeaconedVictims, false) := by
      rw [PartCompressed] at hpart
      simp [getLocalBeaconedVictims, hpart]
    simp [recoverLocalBeaconedVictims, hget, getLocalBeaconedVictims_eq hexisting, hdirinfos,
      require]
  · refine ⟨s, ?_, .inl ⟨hpart, rfl⟩⟩
    rw [PartCompressed] at hpart
    simp [recoverLocalBeaconedVictims, getLocalBeaconedVictims, hpart]

/-- Recovery does not abort if each compressed part can be applied to the existing one. -/
theorem recover_spec (hexisting : existing.AllComplete) (hcompressed : c.isCompressed = true)
    (hseqnum : c.seqnum = existing.seqnum + 1) (hlimit : c.seqnum < uint64Limit)
    (hmargin : c.PartCompressed .cacheMarginBytes →
      ∃ bytes, applyCacheMarginDelta existing.cacheMarginBytes c.cacheMarginDeltaBytes =
        some bytes)
    (hsynced : c.PartCompressed .localSyncedVictims →
      ∃ victims, applyVictims existing.localSyncedVictims c.localSyncedVictims = some victims)
    (hbeaconed : c.PartCompressed .localBeaconedVictims →
      ∃ dirinfos, applyDirinfos existing.localBeaconedVictims c.localBeaconedVictims =
        some dirinfos) :
    ∃ r, recover c existing = some r ∧ RecoverOf c existing r := by
  obtain ⟨s₁, hs₁, h₁⟩ := recoverCacheMarginBytes_spec (s := c) hexisting hmargin
  obtain ⟨s₂, hs₂, h₂⟩ := recoverLocalSyncedVictims_spec (s := s₁) hexisting hsynced
  obtain ⟨s₃, hs₃, h₃⟩ := recoverLocalBeaconedVictims_spec (s := s₂) hexisting hbeaconed
  have hnext : uint64Add existing.seqnum 1 = some (existing.seqnum + 1) := uint64Add_eq (by omega)
  have hspec : RecoverOf c existing s₃ := by
    -- each stage either finds its part complete and leaves it, or sets it and nothing else
    obtain ⟨hm, rfl⟩ | ⟨hm, bytes, hbytes, rfl⟩ := h₁ <;>
    obtain ⟨hv, rfl⟩ | ⟨hv, victims, hvictims, rfl⟩ := h₂ <;>
    obtain ⟨hd, rfl⟩ | ⟨hd, dirinfos, hdirinfos, rfl⟩ := h₃ <;>
    constructor <;>
    first
    | rfl
    | exact .inl ⟨‹_›, rfl⟩
    | exact .inr ⟨‹_›, ‹_›⟩
    | exact .inr ⟨‹_›, _, ‹_›, rfl⟩
    | (rw [isComplete_iff]; intro part; cases part <;> simp [*])
  refine ⟨s₃, ?_, hspec⟩
  simp only [recover, require_bind hcompressed, require_bind hexisting.complete, hnext, some_bind,
    require_bind hseqnum, hs₁, hs₂, hs₃, require_bind hspec.complete, require_bind hspec.seqnum,
    require_bind hspec.enforce, Option.pure_def]

theorem seqnum_recover {r : VictimSyncset} (h : recover c existing = some r) :
    r.seqnum = c.seqnum := by
  simp only [recover, bind_eq_some_iff, require_eq_some_iff] at h
  obtain ⟨-, -, -, -, next, -, -, -, s₁, -, s₂, -, s₃, -, -, -, -, hseqnum, -, -, h⟩ := h
  cases h
  exact hseqnum

theorem seqnum_compress {current prev : VictimSyncset} (h : compress current prev = some c) :
    c.seqnum = current.seqnum := by
  simp only [compress, bind_eq_some_iff, pure_eq_some_iff] at h
  obtain ⟨-, -, -, -, -, -, -, -, s₂, h₂, s₃, h₃, rfl⟩ := h
  have h₁ : (compressCacheMarginBytes current current prev).seqnum = current.seqnum := by
    rw [compressCacheMarginBytes]
    split <;> rfl
  have hsynced : s₂.seqnum = (compressCacheMarginBytes current current prev).seqnum := by
    simp only [compressLocalSyncedVictims, bind_eq_some_iff, pure_eq_some_iff] at h₂
    obtain ⟨-, -, -, -, messages, -, rfl⟩ := h₂
    split <;> rfl
  have hbeaconed : s₃.seqnum = s₂.seqnum := by
    simp only [compressLocalBeaconedVictims, bind_eq_some_iff, pure_eq_some_iff] at h₃
    obtain ⟨-, -, -, -, messages, -, rfl⟩ := h₃
    split <;> rfl
  split
  · rw [hbeaconed, hsynced, h₁]
  · rfl

end Recover

/-! ## Round trips -/

/-- A complete syncset as an edge computes it for itself. -/
structure WellFormed (s : VictimSyncset) : Prop extends AllComplete s where
  distinct : DistinctVictims s.localSyncedVictims
  margin_lt : s.cacheMarginBytes < uint64Limit

instance (s : VictimSyncset) : Decidable s.WellFormed :=
  decidable_of_iff (s.isComplete = true ∧ (∀ v ∈ s.localSyncedVictims, v.isComplete = true) ∧
      CompleteDirinfos s.localBeaconedVictims ∧ DistinctVictims s.localSyncedVictims ∧
      s.cacheMarginBytes < uint64Limit)
    ⟨fun ⟨hcomplete, hvictims, hdirinfos, hdistinct, hmargin⟩ =>
        ⟨⟨hcomplete, hvictims, hdirinfos⟩, hdistinct, hmargin⟩,
      fun h => ⟨h.complete, h.victims, h.dirinfos, h.distinct, h.margin_lt⟩⟩

/-- What the recovered syncset has in common with the current one, given what the existing one had
in common with the previous one. -/
structure RoundTrip (current prev existing r : VictimSyncset) : Prop where
  wellFormed : r.WellFormed
  seqnum : r.seqnum = current.seqnum
  enforce : r.isEnforceComplete = current.isEnforceComplete
  margin_le : r.cacheMarginBytes ≤ current.cacheMarginBytes
  margin_eq : existing.cacheMarginBytes = prev.cacheMarginBytes →
    prev.cacheMarginBytes ≠ current.cacheMarginBytes + 2 ^ 31 →
    r.cacheMarginBytes = current.cacheMarginBytes
  partOf : ∀ {β : Type} (g : VictimCacheinfo → β),
    (∀ v ∈ current.localSyncedVictims, ∀ p ∈ prev.localSyncedVictims, v.key = p.key →
      VictimCacheinfo.Tracks g v p) →
    PartOf g existing.localSyncedVictims prev.localSyncedVictims →
    PartOf g r.localSyncedVictims current.localSyncedVictims
  covers : Covers existing.localSyncedVictims prev.localSyncedVictims →
    Covers r.localSyncedVictims current.localSyncedVictims
  order : r.localSyncedVictims = current.localSyncedVictims ∨
    Ascending VictimCacheinfo.localReward r.localSyncedVictims

section RoundTrip

variable {current prev existing c r : VictimSyncset}

theorem partOf_refl {β : Type} (g : VictimCacheinfo → β) (victims : List VictimCacheinfo) :
    PartOf g victims victims :=
  fun _ v hv => ⟨v, hv, rfl⟩

theorem covers_refl (victims : List VictimCacheinfo) : Covers victims victims :=
  fun _ h => h

section WellFormed

variable (hcur : current.WellFormed) (hprev : prev.WellFormed)
include hcur hprev

/-- The victims of a recovered syncset. -/
theorem victims_roundTrip (hexisting : existing.WellFormed) (hc : CompressOf current prev c)
    (hr : RecoverOf c existing r) :
    (∀ v ∈ r.localSyncedVictims, v.isComplete = true) ∧ DistinctVictims r.localSyncedVictims ∧
    (∀ {β : Type} (g : VictimCacheinfo → β),
      (∀ v ∈ current.localSyncedVictims, ∀ p ∈ prev.localSyncedVictims, v.key = p.key →
        VictimCacheinfo.Tracks g v p) →
      PartOf g existing.localSyncedVictims prev.localSyncedVictims →
      PartOf g r.localSyncedVictims current.localSyncedVictims) ∧
    (Covers existing.localSyncedVictims prev.localSyncedVictims →
      Covers r.localSyncedVictims current.localSyncedVictims) ∧
    (r.localSyncedVictims = current.localSyncedVictims ∨
      Ascending localReward r.localSyncedVictims) := by
  rcases hr.synced with ⟨hpart, heq⟩ | ⟨hpart, victims, hvictims, heq⟩
  · -- the victims were sent as they are
    have hsame : r.localSyncedVictims = current.localSyncedVictims := by
      rcases hc.synced with ⟨-, hsame⟩ | ⟨hpart', -⟩
      · exact heq.trans hsame
      · exact absurd hpart' hpart
    rw [hsame]
    exact ⟨hcur.victims, hcur.distinct, fun g _ _ => partOf_refl g _, fun _ => covers_refl _,
      .inl rfl⟩
  · obtain ⟨messages, hmessages, hlist⟩ : ∃ messages,
        compressVictims prev.localSyncedVictims current.localSyncedVictims = some messages ∧
        c.localSyncedVictims =
          messages ++ staleVictims current.localSyncedVictims prev.localSyncedVictims := by
      rcases hc.synced with ⟨hpart', -⟩ | ⟨-, h⟩
      · exact absurd hpart hpart'
      · exact h
    obtain ⟨messages', known', hmessages', hknown', hcomplete, hdistinct, hpartOf, hcovers⟩ :=
      recovered_spec hcur.victims hprev.victims hcur.distinct hprev.distinct hexisting.victims
        hexisting.distinct
    rw [hmessages, Option.some.injEq] at hmessages'
    subst hmessages'
    rw [hlist, hknown', Option.some.injEq] at hvictims
    subst hvictims
    have hperm := perm_sortByLocalRewards known'
    have hsorted : DistinctVictims (sortByLocalRewards known') :=
      hdistinct.perm hperm.symm
    rw [heq]
    refine ⟨?_, hsorted, ?_, ?_, ?_⟩
    · intro v hv
      exact hcomplete v (hperm.mem_iff.1 hv)
    · intro β g htracks hexistingPart key v hv
      rw [find_perm hsorted hperm] at hv
      exact hpartOf g htracks hexistingPart key v hv
    · intro hexistingCovers key hkey
      rw [find_perm hsorted hperm]
      exact hcovers hexistingCovers key hkey
    · exact .inr (ascending_sortByLocalRewards known')

/-- A relation to the previous victims becomes one to the current victims. -/
theorem related_roundTrip (hexisting : existing.WellFormed) (hc : CompressOf current prev c)
    (hr : RecoverOf c existing r) {R R' : VictimCacheinfo → VictimCacheinfo → Prop}
    (hself : ∀ v ∈ current.localSyncedVictims, R' v v)
    (hfollows : ∀ v ∈ current.localSyncedVictims, ∀ p ∈ prev.localSyncedVictims, v.key = p.key →
      Follows R R' v p)
    (hrelated : RelatedTo R existing.localSyncedVictims prev.localSyncedVictims) :
    RelatedTo R' r.localSyncedVictims current.localSyncedVictims := by
  rcases hr.synced with ⟨hpart, heq⟩ | ⟨hpart, victims, hvictims, heq⟩
  · have hsame := (hc.synced.resolve_right fun h => hpart h.1).2
    rw [heq, hsame]
    exact fun key v hv => ⟨v, hv, hself v (mem_of_find hv)⟩
  · obtain ⟨messages, hmessages, hlist⟩ := (hc.synced.resolve_left fun h => h.1 hpart).2
    rw [hlist] at hvictims
    have hknown := recovered_related hcur.victims hprev.victims hcur.distinct hprev.distinct
      hexisting.victims hexisting.distinct hmessages hvictims hself hfollows hrelated
    have hperm := perm_sortByLocalRewards victims
    have hsorted : DistinctVictims r.localSyncedVictims :=
      (victims_roundTrip hcur hprev hexisting hc hr).2.1
    rw [heq] at hsorted ⊢
    intro key v hv
    rw [find_perm hsorted hperm] at hv
    exact hknown key v hv

/-- The free bytes of a recovered syncset. -/
theorem margin_roundTrip (hc : CompressOf current prev c) (hr : RecoverOf c existing r)
    (hmargin : existing.cacheMarginBytes ≤ prev.cacheMarginBytes) :
    r.cacheMarginBytes ≤ current.cacheMarginBytes ∧
    (existing.cacheMarginBytes = prev.cacheMarginBytes →
      prev.cacheMarginBytes ≠ current.cacheMarginBytes + 2 ^ 31 →
      r.cacheMarginBytes = current.cacheMarginBytes) := by
  rcases hr.margin with ⟨hpart, heq⟩ | ⟨hpart, happly⟩
  · have hsame : r.cacheMarginBytes = current.cacheMarginBytes := by
      rcases hc.margin with ⟨-, hsame⟩ | ⟨hpart', -⟩
      · exact heq.trans hsame
      · exact absurd hpart' hpart
    exact ⟨le_of_eq hsame, fun _ _ => hsame⟩
  · have hdelta := (hc.margin.resolve_left fun h => h.1 hpart).2
    constructor
    · obtain ⟨bytes, hbytes, hle⟩ :=
        applyCacheMarginDelta_le hdelta hcur.margin_lt hprev.margin_lt hmargin
      rw [happly, Option.some.injEq] at hbytes
      rw [hbytes]
      exact hle
    · intro hexisting hmin
      rw [hexisting, applyCacheMarginDelta_eq hdelta hcur.margin_lt hprev.margin_lt hmin,
        Option.some.injEq] at happly
      exact happly.symm

/-- The dirinfo sets of a recovered syncset are complete. -/
theorem dirinfos_roundTrip (hexisting : existing.WellFormed) (hc : CompressOf current prev c)
    (hr : RecoverOf c existing r) : CompleteDirinfos r.localBeaconedVictims := by
  rcases hr.beaconed with ⟨hpart, heq⟩ | ⟨hpart, happly⟩
  · have hsame := (hc.beaconed.resolve_right fun h => hpart h.1).2
    rw [heq, hsame]
    exact hcur.dirinfos
  · have hmessages := (hc.beaconed.resolve_left fun h => h.1 hpart).2
    obtain ⟨messages, known', hmessages', hknown', hcomplete⟩ :=
      dirinfos_isSome hcur.dirinfos hprev.dirinfos hexisting.dirinfos
    rw [hmessages, Option.some.injEq] at hmessages'
    subst hmessages'
    rw [happly, Option.some.injEq] at hknown'
    rw [hknown']
    exact hcomplete

/-- A compressed syncset is recovered against any well-formed syncset with the previous sequence
number and not more free bytes than the previous one. -/
theorem roundTrip_spec (hexisting : existing.WellFormed) (hc : CompressOf current prev c)
    (hcompressed : c.isCompressed = true) (hseqnum : current.seqnum = existing.seqnum + 1)
    (hlimit : current.seqnum < uint64Limit)
    (hmargin : existing.cacheMarginBytes ≤ prev.cacheMarginBytes) :
    ∃ r, recover c existing = some r ∧ RecoverOf c existing r ∧
      RoundTrip current prev existing r := by
  obtain ⟨r, hrecover, hr⟩ : ∃ r, recover c existing = some r ∧ RecoverOf c existing r := by
    apply recover_spec hexisting.toAllComplete hcompressed
    · rw [hc.seqnum, hseqnum]
    · rw [hc.seqnum]
      exact hlimit
    · intro hpart
      have hdelta := (hc.margin.resolve_left fun h => h.1 hpart).2
      obtain ⟨bytes, hbytes, -⟩ :=
        applyCacheMarginDelta_le hdelta hcur.margin_lt hprev.margin_lt hmargin
      exact ⟨bytes, hbytes⟩
    · intro hpart
      obtain ⟨messages, hmessages, hlist⟩ := (hc.synced.resolve_left fun h => h.1 hpart).2
      obtain ⟨messages', known', hmessages', hknown', -⟩ :=
        recovered_spec hcur.victims hprev.victims hcur.distinct hprev.distinct hexisting.victims
          hexisting.distinct
      rw [hmessages, Option.some.injEq] at hmessages'
      subst hmessages'
      rw [hlist]
      exact ⟨known', hknown'⟩
    · intro hpart
      have hmessages := (hc.beaconed.resolve_left fun h => h.1 hpart).2
      obtain ⟨messages, known', hmessages', hknown', -⟩ :=
        dirinfos_isSome hcur.dirinfos hprev.dirinfos hexisting.dirinfos
      rw [hmessages, Option.some.injEq] at hmessages'
      subst hmessages'
      exact ⟨known', hknown'⟩
  obtain ⟨hvictims, hdistinct, hpartOf, hcovers, horder⟩ :=
    victims_roundTrip hcur hprev hexisting hc hr
  obtain ⟨hle, heq⟩ := margin_roundTrip hcur hprev hc hr hmargin
  refine ⟨r, hrecover, hr, ?_⟩
  constructor
  · exact ⟨⟨hr.complete, hvictims, dirinfos_roundTrip hcur hprev hexisting hc hr⟩, hdistinct,
      lt_of_le_of_lt hle hcur.margin_lt⟩
  · exact hr.seqnum.trans hc.seqnum
  · exact hr.enforce.trans hc.enforce
  · exact hle
  · exact heq
  · exact hpartOf
  · exact hcovers
  · exact horder

end WellFormed

end RoundTrip

/-! ## The round trip over the previous syncset -/

/-- The approximate comparison is exact for the popularities of the two lists. -/
def ExactPopularities (current prev : List VictimCacheinfo) : Prop :=
  ∀ v ∈ current, ∀ p ∈ prev,
    VictimCacheinfo.Exact v.localCachedPopularity p.localCachedPopularity ∧
    VictimCacheinfo.Exact v.redirectedCachedPopularity p.redirectedCachedPopularity

/-- The approximate comparison is exact for the rewards of the two lists. -/
def ExactRewards (current prev : List VictimCacheinfo) : Prop :=
  ∀ v ∈ current, ∀ p ∈ prev, VictimCacheinfo.Exact v.localReward p.localReward

instance (current prev : List VictimCacheinfo) : Decidable (ExactPopularities current prev) :=
  inferInstanceAs (Decidable (∀ v ∈ current, ∀ p ∈ prev, _ ∧ _))

instance (current prev : List VictimCacheinfo) : Decidable (ExactRewards current prev) :=
  inferInstanceAs (Decidable (∀ v ∈ current, ∀ p ∈ prev, VictimCacheinfo.Exact _ _))

section Lossless

variable {victims reference : List VictimCacheinfo} {current prev : VictimSyncset}

theorem perm_contents (hdistinct : DistinctVictims victims) (hdistinct' : DistinctVictims reference)
    (hpart : PartOf contents victims reference) (hcovers : Covers victims reference) :
    (victims.map contents).Perm (reference.map contents) :=
  perm_map_of_find (fun _ _ h => congrArg Prod.fst h) hdistinct hdistinct'
    (map_find_eq hpart hcovers)

theorem perm_report (hdistinct : DistinctVictims victims) (hdistinct' : DistinctVictims reference)
    (hpart : PartOf report victims reference) (hcovers : Covers victims reference) :
    (victims.map report).Perm (reference.map report) :=
  perm_map_of_find (fun _ _ h => congrArg (fun x => x.1.1) h) hdistinct hdistinct'
    (map_find_eq hpart hcovers)

/-- Reports in ascending order are determined by the strictly ascending ones. -/
theorem report_eq_of_perm (hperm : (victims.map report).Perm
      (reference.map report))
    (horder : victims = reference ∨ Ascending localReward victims)
    (hstrict : StrictAscending localReward reference) :
    victims.map report = reference.map report := by
  rcases horder with rfl | horder
  · rfl
  · refine eq_of_perm_of_ascending (f := Prod.snd) ?_ ?_ hperm
    · exact List.pairwise_map.2 horder
    · exact List.pairwise_map.2 hstrict

/-- Compression does not abort. What it returns is the current syncset itself, or a compressed one
from which the previous syncset recovers the current one: sequence number, free bytes, victims, and
for each beaconed victim the directory infos. The victims come back in the order of their rewards,
which is the current order if that is strictly ascending. -/
theorem lossless (hcur : current.WellFormed) (hprev : prev.WellFormed)
    (hbeaconed : KeyedList.NodupKeys Prod.fst current.localBeaconedVictims)
    (hseqnum : current.seqnum = prev.seqnum + 1) (hlimit : current.seqnum < uint64Limit)
    (hmin : prev.cacheMarginBytes ≠ current.cacheMarginBytes + 2 ^ 31) :
    ∃ c, compress current prev = some c ∧ (c.isComplete = true → c = current) ∧
      (c.isCompressed = true → ∃ r, recover c prev = some r ∧ r.isComplete = true ∧
        r.seqnum = current.seqnum ∧ r.cacheMarginBytes = current.cacheMarginBytes ∧
        (ExactPopularities current.localSyncedVictims prev.localSyncedVictims →
          (r.localSyncedVictims.map VictimCacheinfo.contents).Perm
            (current.localSyncedVictims.map VictimCacheinfo.contents) ∧
          (ExactRewards current.localSyncedVictims prev.localSyncedVictims →
            StrictAscending VictimCacheinfo.localReward current.localSyncedVictims →
            r.localSyncedVictims.map VictimCacheinfo.report =
              current.localSyncedVictims.map VictimCacheinfo.report)) ∧
        ∀ pair ∈ current.localBeaconedVictims, ∃ set,
          KeyedList.find Prod.fst pair.1 r.localBeaconedVictims = some (pair.1, set) ∧
          set.isComplete = true ∧ ∀ d, d ∈ set.dirinfoSet ↔ d ∈ pair.2.dirinfoSet) := by
  obtain ⟨c, hcompress, hc⟩ :=
    compress_spec hcur.toAllComplete hprev.toAllComplete hseqnum hlimit
  refine ⟨c, hcompress, hc.complete, fun hcompressed => ?_⟩
  obtain ⟨r, hrecover, hrof, hr⟩ :=
    roundTrip_spec hcur hprev hprev hc hcompressed hseqnum hlimit (le_refl _)
  have hcovers := hr.covers (covers_refl _)
  refine ⟨r, hrecover, hrof.complete, hr.seqnum, hr.margin_eq rfl hmin, fun hpopularities => ?_, ?_⟩
  · constructor
    · have hpart := hr.partOf VictimCacheinfo.contents
        (fun v hv p hp hkey => VictimCacheinfo.tracks_contents hkey (hpopularities v hv p hp).1
          (hpopularities v hv p hp).2) (partOf_refl _ _)
      exact perm_contents hr.wellFormed.distinct hcur.distinct hpart hcovers
    · intro hrewards hstrict
      have hpart := hr.partOf VictimCacheinfo.report
        (fun v hv p hp hkey => VictimCacheinfo.tracks_report hkey (hpopularities v hv p hp).1
          (hpopularities v hv p hp).2 (hrewards v hv p hp)) (partOf_refl _ _)
      exact report_eq_of_perm (perm_report hr.wellFormed.distinct hcur.distinct hpart hcovers)
        hr.order hstrict
  · intro pair hpair
    rcases hrof.beaconed with ⟨hnot, heq⟩ | ⟨hcomp, happly⟩
    · have hsame := (hc.beaconed.resolve_right fun h => hnot h.1).2
      rw [heq, hsame]
      exact ⟨pair.2, (KeyedList.find_eq_some_iff hbeaconed).2 ⟨hpair, rfl⟩,
        hcur.dirinfos pair hpair, fun _ => Iff.rfl⟩
    · have hmessages := (hc.beaconed.resolve_left fun h => h.1 hcomp).2
      obtain ⟨messages, known', hmessages', hknown', hfind⟩ :=
        dirinfos_recovered hcur.dirinfos hprev.dirinfos hbeaconed
      rw [hmessages, Option.some.injEq] at hmessages'
      subst hmessages'
      rw [happly, Option.some.injEq] at hknown'
      rw [hknown']
      exact hfind pair hpair

end Lossless

/-! ## Concrete round trips -/

/-- A victim of 100 bytes with a key of one byte. -/
def oneByteVictim (name : UInt8) (popularity : Popularity) (reward : Reward) : VictimCacheinfo :=
  VictimCacheinfo.create ⟨[name]⟩ 100 popularity 0 reward 0

/-- The round trip returns the victims of the current syncset in their order. -/
def ReturnsVictims (current prev : VictimSyncset) : Prop :=
  ((compress current prev).bind fun c => recover c prev).map
      (fun r => r.localSyncedVictims.map VictimCacheinfo.contents) =
    some (current.localSyncedVictims.map VictimCacheinfo.contents)

instance (current prev : VictimSyncset) : Decidable (ReturnsVictims current prev) :=
  inferInstanceAs (Decidable (_ = _))

/-- A recovery has nothing to start from when compression falls back to the complete syncset, and
the order of the victims is lost between equal rewards and between rewards that pass for equal. -/
theorem roundTrip_not_exact :
    (∃ current prev : VictimSyncset, current.WellFormed ∧ prev.WellFormed ∧
      current.seqnum = prev.seqnum + 1 ∧
      ExactPopularities current.localSyncedVictims prev.localSyncedVictims ∧
      (compress current prev).map isComplete = some true ∧ ¬ ReturnsVictims current prev) ∧
    (∃ current prev : VictimSyncset, current.WellFormed ∧ prev.WellFormed ∧
      current.seqnum = prev.seqnum + 1 ∧
      ExactPopularities current.localSyncedVictims prev.localSyncedVictims ∧
      Ascending VictimCacheinfo.localReward current.localSyncedVictims ∧
      ¬ ReturnsVictims current prev) ∧
    (∃ current prev : VictimSyncset, current.WellFormed ∧ prev.WellFormed ∧
      current.seqnum = prev.seqnum + 1 ∧
      ExactPopularities current.localSyncedVictims prev.localSyncedVictims ∧
      StrictAscending VictimCacheinfo.localReward current.localSyncedVictims ∧
      ¬ ReturnsVictims current prev) := by
  refine ⟨⟨create 1 false (2 ^ 40) [] [], create 0 false 0 [] [], ?_⟩,
    ⟨create 1 false 0 [oneByteVictim 2 5 1, oneByteVictim 1 5 1] [],
      create 0 false 0 [oneByteVictim 1 5 1, oneByteVictim 2 5 1] [], ?_⟩,
    ⟨create 1 false 0 [oneByteVictim 2 5 1, oneByteVictim 1 5 (21 / 20)] [],
      create 0 false 0 [oneByteVictim 1 5 1, oneByteVictim 2 5 (21 / 20)] [], ?_⟩⟩
  · decide +kernel
  · decide +kernel
  · decide +kernel

/-- One victim changes its popularity, one is new and one is stale. -/
theorem lossless_threeVictims :
    let prev := create 0 false 4096 [oneByteVictim 1 5 1, oneByteVictim 2 7 2]
      [(⟨[2]⟩, DirinfoSet.ofList [⟨0⟩])]
    let current := create 1 false 1024 [oneByteVictim 2 9 2, oneByteVictim 3 4 3]
      [(⟨[2]⟩, DirinfoSet.ofList [⟨0⟩, ⟨1⟩])]
    ∃ c r, compress current prev = some c ∧ c.isCompressed = true ∧ recover c prev = some r ∧
      r.cacheMarginBytes = 1024 ∧
      r.localSyncedVictims.map VictimCacheinfo.report =
        current.localSyncedVictims.map VictimCacheinfo.report := by
  intro prev current
  have hcur : current.WellFormed := by decide +kernel
  have hprev : prev.WellFormed := by decide +kernel
  obtain ⟨c, hcompress, -, hrecovered⟩ :=
    lossless hcur hprev (by decide +kernel) rfl (by decide) (by decide)
  have hcompressed : ((compress current prev).map isCompressed) = some true := by decide +kernel
  rw [hcompress, Option.map_some, Option.some.injEq] at hcompressed
  obtain ⟨r, hrecover, -, -, hmargin, hvictims, -⟩ := hrecovered hcompressed
  exact ⟨c, r, hcompress, hcompressed, hrecover, hmargin,
    (hvictims (by decide +kernel)).2 (by decide +kernel) (by decide +kernel)⟩

end VictimSyncset

end Covered.Victim
