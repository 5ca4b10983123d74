import Covered.Victim.VictimSyncset

/-!
# Delta compression of the parts of a victim syncset

The parts of a syncset are compressed and recovered by themselves. For the victims the argument is
by key: what a message list does to the victims known so far is a function of the key
(`find_applyVictims`), and so is what the messages say about a key (`messages_spec`).
Composed, the recovered victim of a key shows what the current one shows, provided that the receiver
had what the previous one showed (`recovered_spec`); the receiver may have lost some victims in
between.
-/

set_option autoImplicit false

namespace Covered.Victim

open Common Cooperation Lib Lib.Checked Lib.SortBy KeyedList List VictimCacheinfo DirinfoSet

namespace VictimSyncset

/-! ## Which parts are compressed -/

theorem hasPart_mark (part other : SyncsetPart) : ∀ bitmap : BitVec 6, LegalBitmap bitmap →
    (HasPart (markCompressed part bitmap) other ↔ other = part ∨ HasPart bitmap other) ∧
    (HasPart (markComplete part bitmap) other ↔ other ≠ part ∧ HasPart bitmap other) := by
  cases part <;> cases other <;> decide +kernel

theorem hasPart_markEmpty (part : SyncsetPart) : ∀ (isEmpty : Bool) (bitmap : BitVec 6),
    (HasPart (markEmpty localSyncedVictimsEmptyMask isEmpty bitmap) part ↔ HasPart bitmap part) ∧
    (HasPart (markEmpty localBeaconedVictimsEmptyMask isEmpty bitmap) part ↔
      HasPart bitmap part) := by
  cases part <;> decide +kernel

theorem complete_bitmap_iff : ∀ bitmap : BitVec 6, LegalBitmap bitmap →
    (bitmap &&& compressMask = completeBitmap &&& compressMask ↔
      ¬ HasPart bitmap .cacheMarginBytes ∧ ¬ HasPart bitmap .localSyncedVictims ∧
        ¬ HasPart bitmap .localBeaconedVictims) ∧
    (decide (bitmap &&& compressMask = completeBitmap &&& compressMask) =
      !isCompressedBitmap bitmap) := by
  decide +kernel

/-- The part of the syncset is compressed. -/
def PartCompressed (s : VictimSyncset) (part : SyncsetPart) : Prop :=
  HasPart s.compressedBitmap part

theorem isComplete_iff (s : VictimSyncset) : s.isComplete = true ↔
    ∀ part, ¬ s.PartCompressed part := by
  rw [isComplete, decide_eq_true_eq, (complete_bitmap_iff _ s.bitmap_wf).1]
  constructor
  · rintro ⟨hmargin, hsynced, hbeaconed⟩ part
    cases part
    · exact hmargin
    · exact hsynced
    · exact hbeaconed
  · intro h
    exact ⟨h _, h _, h _⟩

theorem isComplete_eq_not_isCompressed (s : VictimSyncset) : s.isComplete = !s.isCompressed :=
  (complete_bitmap_iff _ s.bitmap_wf).2

section Setters

variable (s : VictimSyncset) (part : SyncsetPart)

@[simp] theorem part_setCacheMarginBytes (bytes : Nat) :
    (s.setCacheMarginBytes bytes).PartCompressed part ↔
      part ≠ .cacheMarginBytes ∧ s.PartCompressed part :=
  (hasPart_mark _ _ _ s.bitmap_wf).2

@[simp] theorem part_setLocalSyncedVictims (victims : List VictimCacheinfo) :
    (s.setLocalSyncedVictims victims).PartCompressed part ↔
      part ≠ .localSyncedVictims ∧ s.PartCompressed part :=
  (hasPart_markEmpty _ _ _).1.trans (hasPart_mark _ _ _ s.bitmap_wf).2

@[simp] theorem part_setLocalBeaconedVictims (victims : List (Key × DirinfoSet)) :
    (s.setLocalBeaconedVictims victims).PartCompressed part ↔
      part ≠ .localBeaconedVictims ∧ s.PartCompressed part :=
  (hasPart_markEmpty _ _ _).2.trans (hasPart_mark _ _ _ s.bitmap_wf).2

@[simp] theorem part_setCacheMarginDeltaBytes (delta : Int) :
    (s.setCacheMarginDeltaBytes delta).PartCompressed part ↔
      part = .cacheMarginBytes ∨ s.PartCompressed part :=
  (hasPart_mark _ _ _ s.bitmap_wf).1

@[simp] theorem part_setLocalSyncedVictimsForCompress (victims : List VictimCacheinfo) :
    (s.setLocalSyncedVictimsForCompress victims).PartCompressed part ↔
      part = .localSyncedVictims ∨ s.PartCompressed part :=
  (hasPart_markEmpty _ _ _).1.trans (hasPart_mark _ _ _ s.bitmap_wf).1

@[simp] theorem part_setLocalBeaconedVictimsForCompress (victims : List (Key × DirinfoSet)) :
    (s.setLocalBeaconedVictimsForCompress victims).PartCompressed part ↔
      part = .localBeaconedVictims ∨ s.PartCompressed part :=
  (hasPart_markEmpty _ _ _).2.trans (hasPart_mark _ _ _ s.bitmap_wf).1

end Setters

/-- Appending a dirinfo set to a complete syncset leaves it complete. -/
theorem pushLocalBeaconedVictim_spec {s : VictimSyncset} (h : s.isComplete = true) (key : Key)
    (dirinfoSet : DirinfoSet) :
    ∃ s', s.pushLocalBeaconedVictimForComplete key dirinfoSet = some s' ∧
      s'.isComplete = true ∧ s'.cacheMarginBytes = s.cacheMarginBytes ∧
      s'.localSyncedVictims = s.localSyncedVictims ∧
      s'.localBeaconedVictims = s.localBeaconedVictims ++ [(key, dirinfoSet)] := by
  simp only [pushLocalBeaconedVictimForComplete, require_bind h]
  refine ⟨_, rfl, ?_, rfl, rfl, rfl⟩
  rw [isComplete_iff] at h ⊢
  exact fun part hpart => h part ((hasPart_markEmpty part _ _).2.1 hpart)

/-- All parts and all of their members are complete. -/
structure AllComplete (s : VictimSyncset) : Prop where
  complete : s.isComplete = true
  victims : ∀ v ∈ s.localSyncedVictims, v.isComplete = true
  dirinfos : ∀ pair ∈ s.localBeaconedVictims, pair.2.isComplete = true

theorem AllComplete.not_part {s : VictimSyncset} (h : s.AllComplete) (part : SyncsetPart) :
    ¬ s.PartCompressed part :=
  (isComplete_iff s).1 h.complete part

/-! ## Cache margin bytes -/

theorem toInt32_of_range {x : Int} (hlow : -2 ^ 31 ≤ x) (hhigh : x < 2 ^ 31) : toInt32 x = x := by
  unfold toInt32
  omega

theorem toUint64_of_range {x : Int} (hlow : 0 ≤ x) (hhigh : x < 2 ^ 64) :
    toUint64 x = x.toNat := by
  unfold toUint64
  rw [Int.emod_eq_of_lt hlow hhigh]

/-- A drop by exactly `2 ^ 31` bytes is sent as the smallest 32-bit integer. -/
theorem toInt32_min : toInt32 (-1 * toInt32 (2 ^ 31 : Int)) = -2 ^ 31 := by
  decide

variable {current : Nat} {delta : Int}

/-- The delta is the exact difference. -/
theorem cacheMarginDelta_eq {prev : Nat} (h : cacheMarginDelta current prev = some delta) :
    delta = (current : Int) - prev ∧ -2 ^ 31 ≤ delta ∧ delta < 2 ^ 31 := by
  unfold cacheMarginDelta at h
  split at h
  · split at h
    · rw [Option.some.injEq, toInt32_of_range (by omega) (by omega)] at h
      omega
    · exact absurd h (by simp)
  · split at h
    · rcases Nat.lt_or_ge (prev - current) (2 ^ 31) with hlt | hge
      · rw [Option.some.injEq, toInt32_of_range (x := (prev - current : Nat)) (by omega) (by omega),
          toInt32_of_range (by omega) (by omega)] at h
        omega
      · -- the boundary: the wrapped negation is the smallest integer, which is still exact
        have heq : ((prev - current : Nat) : Int) = 2 ^ 31 := by omega
        rw [heq, toInt32_min, Option.some.injEq] at h
        omega
    · exact absurd h (by simp)

/-- A delta other than the smallest 32-bit integer is applied exactly. -/
theorem applyCacheMarginDelta_eq {prev : Nat} (h : cacheMarginDelta current prev = some delta)
    (hcur : current < uint64Limit) (hprev : prev < uint64Limit) (hmin : prev ≠ current + 2 ^ 31) :
    applyCacheMarginDelta prev delta = some current := by
  obtain ⟨hdelta, hlow, hhigh⟩ := cacheMarginDelta_eq h
  unfold uint64Limit at hcur hprev
  unfold applyCacheMarginDelta
  split
  · rw [toUint64_of_range (by omega) (by omega), uint64Add_eq (by unfold uint64Limit; omega)]
    congr 1
    omega
  · rw [toInt32_of_range (by omega) (by omega), toUint64_of_range (by omega) (by omega),
      uint64Minus_eq (by unfold uint64Limit; omega) (by omega)]
    congr 1
    omega

theorem toUint64_minus_min : toUint64 (toInt32 (-1 * (-2 ^ 31))) = 2 ^ 64 - 2 ^ 31 := by
  decide

/-- A receiver that has at most the previous bytes has at most the current ones afterwards, also
when the delta is the smallest 32-bit integer. -/
theorem applyCacheMarginDelta_le {prev existing : Nat}
    (h : cacheMarginDelta current prev = some delta) (hcur : current < uint64Limit)
    (hprev : prev < uint64Limit) (hle : existing ≤ prev) :
    ∃ bytes, applyCacheMarginDelta existing delta = some bytes ∧ bytes ≤ current := by
  obtain ⟨hdelta, hlow, hhigh⟩ := cacheMarginDelta_eq h
  unfold uint64Limit at hcur hprev
  unfold applyCacheMarginDelta
  split
  · rw [toUint64_of_range (by omega) (by omega), uint64Add_eq (by unfold uint64Limit; omega)]
    exact ⟨_, rfl, by omega⟩
  · refine ⟨_, rfl, ?_⟩
    have key : ∀ bytes, bytes < 2 ^ 64 → existing ≤ current + bytes →
        uint64Minus existing bytes ≤ current := by
      intro bytes hbytes hsum
      rcases Nat.lt_or_ge existing bytes with hlt | hge
      · rw [uint64Minus_of_lt hbytes hlt]
        exact Nat.zero_le _
      · rw [uint64Minus_eq (by unfold uint64Limit; omega) hge]
        omega
    rcases eq_or_lt_of_le hlow with hmin | hmin
    · rw [← hmin, toUint64_minus_min]
      exact key _ (by omega) (by omega)
    · rw [toInt32_of_range (by omega) (by omega), toUint64_of_range (by omega) (by omega)]
      exact key _ (by omega) (by omega)

/-! ## Messages about victims -/

/-- The victims have distinct keys. -/
abbrev DistinctVictims (victims : List VictimCacheinfo) : Prop :=
  KeyedList.NodupKeys VictimCacheinfo.key victims

section Messages

variable {current prev : List VictimCacheinfo}

variable {v : VictimCacheinfo}

/-- The message about a complete victim: the victim itself, nothing, or its changes. -/
theorem compressVictim_spec (hprev : ∀ p ∈ prev, p.isComplete = true) (hv : v.isComplete = true) :
    (find key v.key prev = none ∧ compressVictim prev v = some (some v)) ∨
    ∃ p d, find key v.key prev = some p ∧ VictimCacheinfo.DedupOf v p d ∧
      compressVictim prev v = some (if d.isFullyDeduped then none else some d) := by
  unfold compressVictim findVictimCacheinfoForKey
  cases hfind : find key v.key prev with
  | none =>
    refine .inl ⟨rfl, ?_⟩
    simp only [require_bind hv]
    rfl
  | some p =>
    obtain ⟨d, hd, hspec⟩ :=
      dedup_spec hv (hprev p (mem_of_find hfind))
    refine .inr ⟨p, d, rfl, hspec, ?_⟩
    simp only [hd, some_bind]
    rfl

theorem key_compressVictim (hprev : ∀ p ∈ prev, p.isComplete = true) {m : VictimCacheinfo}
    (hv : v.isComplete = true) (h : compressVictim prev v = some (some m)) : m.key = v.key := by
  rcases compressVictim_spec hprev hv with ⟨-, heq⟩ | ⟨p, d, -, hd, heq⟩
  · rw [heq] at h
    cases h
    rfl
  · rw [heq] at h
    split at h <;> cases h
    exact hd.key_eq

theorem compressVictim_isSome (hprev : ∀ p ∈ prev, p.isComplete = true) (hv : v.isComplete = true) :
    (compressVictim prev v).isSome = true := by
  rcases compressVictim_spec hprev hv with ⟨-, heq⟩ | ⟨p, d, -, -, heq⟩
  · rw [heq, Option.isSome_some]
  · rw [heq, Option.isSome_some]

theorem find_staleVictims (key : Key) :
    find VictimCacheinfo.key key (staleVictims current prev) =
      if find VictimCacheinfo.key key current = none then
        (find VictimCacheinfo.key key prev).map markStale
      else none := by
  unfold staleVictims findVictimCacheinfoForKey
  induction prev with
  | nil => simp
  | cons p rest ih =>
    rw [filter_cons]
    by_cases hkey : p.key = key
    · subst hkey
      rw [find_cons, if_pos rfl]
      by_cases hnone : find key p.key current = none
      · rw [hnone, Option.isNone_none, if_pos rfl, map_cons, find_cons,
          key_markStale, if_pos rfl, if_pos rfl, Option.map_some]
      · rw [if_neg hnone, if_neg (by simpa using hnone), ih, if_neg hnone]
    · rw [find_cons, if_neg hkey, ← ih]
      split
      · rw [map_cons, find_cons, key_markStale, if_neg hkey]
      · rfl

theorem isStale_of_mem_staleVictims {m : VictimCacheinfo} (h : m ∈ staleVictims current prev) :
    m.isStale = true ∧ m.isComplete = false := by
  obtain ⟨p, -, rfl⟩ := mem_map.1 h
  exact ⟨isStale_markStale p, isComplete_markStale p⟩

end Messages

/-! ## Messages applied to the victims known so far -/

/-- What is known about a key after a message about it. -/
def applied (existing : Option VictimCacheinfo) :
    Option VictimCacheinfo → Option VictimCacheinfo
  | none => existing
  | some message =>
      if message.isComplete then some message
      else if message.isStale then none
      else existing.bind fun e => VictimCacheinfo.recover message e

/-- A message that can be applied: complete, stale, or with at least one change. -/
def Applicable (message : VictimCacheinfo) : Prop :=
  message.isComplete = true ∨ message.isStale = true ∨ message.isFullyDeduped = false

section Apply

variable {known known' messages : List VictimCacheinfo} {message : VictimCacheinfo}

/-- One message changes what is known about its key and nothing else. -/
theorem applyVictim_spec (hknown : ∀ v ∈ known, v.isComplete = true)
    (hdistinct : DistinctVictims known) (happ : Applicable message) :
    ∃ known', applyVictim known message = some known' ∧
      (∀ v ∈ known', v.isComplete = true) ∧ DistinctVictims known' ∧
      ∀ key, find VictimCacheinfo.key key known' =
        if key = message.key then applied (find VictimCacheinfo.key key known) message
        else find VictimCacheinfo.key key known := by
  unfold applyVictim findVictimCacheinfoForKey
  cases hfind : find key message.key known with
  | none =>
    by_cases hcomplete : message.isComplete = true
    · simp only [hcomplete, if_true]
      refine ⟨_, rfl, ?_, hdistinct.append_singleton hfind, fun key => ?_⟩
      · intro v hv
        rcases mem_append.1 hv with hv | hv
        · exact hknown v hv
        · rw [mem_singleton.1 hv]
          exact hcomplete
      · rw [find_append_singleton hfind]
        simp only [applied, hcomplete, if_true]
    · -- nothing is known about the key and the message has only changes
      have hunchanged : ∀ key, find VictimCacheinfo.key key known =
          if key = message.key then applied (find VictimCacheinfo.key key known) message
          else find VictimCacheinfo.key key known := by
        intro key
        split
        · next hkey =>
          subst hkey
          rw [hfind]
          simp only [applied, hcomplete, Bool.false_eq_true, if_false, Option.bind_none, ite_self]
        · rfl
      by_cases hstale : message.isStale = true
      · simp only [hcomplete, hstale, Bool.false_eq_true, if_false, if_true]
        exact ⟨known, rfl, hknown, hdistinct, hunchanged⟩
      · have hfully := (happ.resolve_left hcomplete).resolve_left hstale
        simp only [hcomplete, hstale, Bool.false_eq_true, if_false, require_bind hfully]
        exact ⟨known, rfl, hknown, hdistinct, hunchanged⟩
  | some existing =>
    by_cases hcomplete : message.isComplete = true
    · simp only [hcomplete, if_true]
      refine ⟨_, rfl, ?_, hdistinct.replace rfl, fun key => ?_⟩
      · intro v hv
        rcases mem_replace hv with rfl | hv
        · exact hcomplete
        · exact hknown v hv
      · rw [find_replace rfl, hfind]
        simp only [applied, hcomplete, if_true, Option.map_some]
    · by_cases hstale : message.isStale = true
      · simp only [hcomplete, hstale, Bool.false_eq_true, if_false, if_true]
        refine ⟨_, rfl, ?_, hdistinct.sublist erase_sublist, fun key => ?_⟩
        · exact fun v hv => hknown v (erase_sublist.subset hv)
        · rw [find_erase hdistinct]
          simp only [applied, hcomplete, hstale, Bool.false_eq_true, if_false, if_true]
      · have hfully := (happ.resolve_left hcomplete).resolve_left hstale
        have hdeduped := isDeduped_of_not (eq_false_of_ne_true hcomplete)
          (eq_false_of_ne_true hstale)
        obtain ⟨r, hr⟩ := recover_isSome hdeduped hfully
          (hknown existing (mem_of_find hfind))
        have hkey : r.key = message.key :=
          (recover_eq_some hr).2.2.2.1.trans (key_of_find hfind)
        simp only [hcomplete, hstale, Bool.false_eq_true, if_false, require_bind hfully, hr,
          some_bind]
        refine ⟨_, rfl, ?_, hdistinct.replace hkey, fun key => ?_⟩
        · intro v hv
          rcases mem_replace hv with rfl | hv
          · exact isComplete_recover hr
          · exact hknown v hv
        · rw [find_replace hkey, hfind]
          split
          · next heq =>
            subst heq
            rw [hfind]
            simp only [applied, hcomplete, hstale, Bool.false_eq_true, if_false, Option.map_some,
              Option.bind_some, hr]
          · rfl

/-- A list of messages with distinct keys changes what is known about each key by its message. -/
theorem find_applyVictims (hknown : ∀ v ∈ known, v.isComplete = true)
    (hdistinct : DistinctVictims known) (happ : ∀ m ∈ messages, Applicable m)
    (hmessages : DistinctVictims messages) :
    ∃ known', applyVictims known messages = some known' ∧
      (∀ v ∈ known', v.isComplete = true) ∧ DistinctVictims known' ∧
      ∀ key, find VictimCacheinfo.key key known' =
        applied (find VictimCacheinfo.key key known)
          (find VictimCacheinfo.key key messages) := by
  obtain ⟨known', happly, ⟨hcomplete, hdistinct'⟩, hfind⟩ :=
    find_applyAll (f := key)
      (P := fun l => (∀ v ∈ l, v.isComplete = true) ∧ DistinctVictims l) (Q := Applicable)
      (e := fun existing m => applied existing (some m))
      (fun l m hl hm => by
        obtain ⟨l', h', hcomplete, hdistinct', hfind⟩ := applyVictim_spec hl.1 hl.2 hm
        exact ⟨l', h', ⟨hcomplete, hdistinct'⟩, hfind⟩)
      ⟨hknown, hdistinct⟩ happ hmessages
  refine ⟨known', happly, hcomplete, hdistinct', fun key => ?_⟩
  rw [hfind]
  cases find VictimCacheinfo.key key messages with
  | none => rfl
  | some m => rfl

end Apply

/-! ## The victims after a round trip -/

/-- Every victim of `known` shows what the victim of the same key in `reference` shows. -/
def PartOf {β : Type} (g : VictimCacheinfo → β) (known reference : List VictimCacheinfo) : Prop :=
  ∀ key v, KeyedList.find VictimCacheinfo.key key known = some v →
    ∃ w, KeyedList.find VictimCacheinfo.key key reference = some w ∧ g v = g w

/-- Every known victim is in relation to the victim of the same key in `reference`. -/
def RelatedTo (R : VictimCacheinfo → VictimCacheinfo → Prop)
    (known reference : List VictimCacheinfo) : Prop :=
  ∀ key v, KeyedList.find VictimCacheinfo.key key known = some v →
    ∃ w, KeyedList.find VictimCacheinfo.key key reference = some w ∧ R v w

/-- Recovery takes what is in relation `R` to the previous cacheinfo to what is in relation `R'` to
the current one. -/
def Follows (R R' : VictimCacheinfo → VictimCacheinfo → Prop) (current prev : VictimCacheinfo) :
    Prop :=
  ∀ d existing, VictimCacheinfo.DedupOf current prev d → R existing prev →
    (d.isFullyDeduped = true → R' existing current) ∧
    ∀ r, VictimCacheinfo.recover d existing = some r → R' r current

/-- Every key of `reference` is known. -/
def Covers (known reference : List VictimCacheinfo) : Prop :=
  ∀ key, (KeyedList.find VictimCacheinfo.key key reference).isSome = true →
    (KeyedList.find VictimCacheinfo.key key known).isSome = true

theorem map_find_eq {β : Type} {g : VictimCacheinfo → β} {known reference : List VictimCacheinfo}
    (hpart : PartOf g known reference) (hcovers : Covers known reference) (key : Key) :
    (find VictimCacheinfo.key key known).map g =
      (find VictimCacheinfo.key key reference).map g := by
  cases hknown : find VictimCacheinfo.key key known with
  | none =>
    cases href : find VictimCacheinfo.key key reference with
    | none => rfl
    | some w =>
      have hsome := hcovers key (by rw [href]; rfl)
      rw [hknown] at hsome
      cases hsome
  | some v =>
    obtain ⟨w, hw, hg⟩ := hpart key v hknown
    rw [hw, Option.map_some, Option.map_some, hg]

section RoundTrip

variable {current prev known known' messages : List VictimCacheinfo}

/-- The messages of a compression: they can be applied, have distinct keys, and say for each key
what changed. -/
theorem messages_spec (hcur : ∀ v ∈ current, v.isComplete = true)
    (hprev : ∀ v ∈ prev, v.isComplete = true) (hdistinct : DistinctVictims current)
    (hdistinct' : DistinctVictims prev) :
    ∃ messages, compressVictims prev current = some messages ∧
      DistinctVictims (messages ++ staleVictims current prev) ∧
      (∀ m ∈ messages ++ staleVictims current prev, Applicable m) ∧
      ∀ key, find VictimCacheinfo.key key (messages ++ staleVictims current prev) =
        match find VictimCacheinfo.key key current with
        | some v => (compressVictim prev v).getD none
        | none => (find VictimCacheinfo.key key prev).map markStale := by
  obtain ⟨messages, hmessages, hsub, hfind⟩ :=
    find_collect (compressVictim prev)
      (fun v hv => compressVictim_isSome hprev (hcur v hv))
      (fun v hv m hm => key_compressVictim hprev (hcur v hv) hm) hdistinct
  have hnodup : DistinctVictims messages := List.Nodup.sublist hsub hdistinct
  have hstaleKeys : ∀ m ∈ staleVictims current prev,
      find key m.key current = none := by
    intro m hm
    obtain ⟨p, hp, rfl⟩ := mem_map.1 hm
    simpa [findVictimCacheinfoForKey] using (mem_filter.1 hp).2
  refine ⟨messages, hmessages, ?_, ?_, fun key => ?_⟩
  · rw [DistinctVictims, KeyedList.NodupKeys, map_append]
    refine List.Nodup.append hnodup ?_ ?_
    · refine List.Nodup.sublist ?_ hdistinct'
      have hkeys : (staleVictims current prev).map key =
          (prev.filter fun p => (findVictimCacheinfoForKey p.key
            current).isNone).map key := by
        rw [staleVictims, map_map]
        rfl
      rw [hkeys]
      exact filter_sublist.map _
    · intro key hkey hstale
      obtain ⟨m, hm, rfl⟩ := mem_map.1 hstale
      exact find_eq_none_iff.1 (hstaleKeys m hm) (hsub.subset hkey)
  · intro m hm
    rcases mem_append.1 hm with hm | hm
    · -- a message about a current victim is found under its key
      have hsome := (find_eq_some_iff hnodup).2 ⟨hm, rfl⟩
      rw [hfind] at hsome
      obtain ⟨v, hv, hmessage⟩ := bind_eq_some_iff.1 hsome
      have hvc := hcur v (mem_of_find hv)
      rcases compressVictim_spec hprev hvc with ⟨-, heq⟩ | ⟨p, d, -, -, heq⟩
      · rw [heq] at hmessage
        cases hmessage
        exact .inl hvc
      · rw [heq] at hmessage
        by_cases hfully : d.isFullyDeduped = true
        · simp [hfully] at hmessage
        · simp only [hfully, Bool.false_eq_true, if_false, Option.getD_some,
            Option.some.injEq] at hmessage
          subst hmessage
          exact .inr (.inr (eq_false_of_ne_true hfully))
    · exact .inr (.inl (isStale_of_mem_staleVictims hm).1)
  · rw [find_append, hfind, find_staleVictims]
    cases find VictimCacheinfo.key key current with
    | none => simp
    | some v => simp

/-- What the receiver knows about a key after the messages: nothing about a key that is not current,
and for a current victim either the victim itself or a recovery of its changes. -/
theorem applied_message (hcur : ∀ v ∈ current, v.isComplete = true)
    (hprev : ∀ v ∈ prev, v.isComplete = true) {key : Key} {v : VictimCacheinfo}
    (hv : find VictimCacheinfo.key key current = some v)
    (existing : Option VictimCacheinfo) :
    applied existing ((compressVictim prev v).getD none) = some v ∨
    ∃ p d, find VictimCacheinfo.key key prev = some p ∧
      VictimCacheinfo.DedupOf v p d ∧
      ((d.isFullyDeduped = true ∧ applied existing ((compressVictim prev v).getD none) = existing) ∨
        (d.isFullyDeduped = false ∧ d.isComplete = false ∧
          applied existing ((compressVictim prev v).getD none) =
            existing.bind fun e => VictimCacheinfo.recover d e)) := by
  have hvc := hcur v (mem_of_find hv)
  have hkey := key_of_find hv
  rcases compressVictim_spec hprev hvc with ⟨-, heq⟩ | ⟨p, d, hp, hd, heq⟩
  · refine .inl ?_
    simp only [heq, Option.getD_some, applied, hvc, if_true]
  · rw [hkey] at hp
    by_cases hfully : d.isFullyDeduped = true
    · refine .inr ⟨p, d, hp, hd, .inl ⟨hfully, ?_⟩⟩
      simp only [heq, hfully, if_true, Option.getD_some, applied]
    · by_cases hcomplete : d.isComplete = true
      · refine .inl ?_
        have hdv := hd.complete hcomplete
        subst hdv
        simp only [heq, hfully, Bool.false_eq_true, if_false, Option.getD_some, applied, hcomplete,
          if_true]
      · refine .inr ⟨p, d, hp, hd, .inr ⟨eq_false_of_ne_true hfully,
          eq_false_of_ne_true hcomplete, ?_⟩⟩
        simp only [heq, hfully, Bool.false_eq_true, if_false, Option.getD_some, applied, hcomplete,
          hd.not_stale]

section Recovered

variable (hcur : ∀ v ∈ current, v.isComplete = true) (hprev : ∀ v ∈ prev, v.isComplete = true)
  (hdistinct : DistinctVictims current) (hdistinct' : DistinctVictims prev)
  (hknown : ∀ v ∈ known, v.isComplete = true) (hdistinctKnown : DistinctVictims known)
include hcur hprev hdistinct hdistinct' hknown hdistinctKnown

/-- A relation of what the receiver knows to the previous victims becomes one to the current
victims, if recovery takes the one to the other and every current victim has the latter to
itself. -/
theorem recovered_related (hmessages : compressVictims prev current = some messages)
    (hknown' : applyVictims known (messages ++ staleVictims current prev) = some known')
    {R R' : VictimCacheinfo → VictimCacheinfo → Prop} (hself : ∀ v ∈ current, R' v v)
    (hfollows : ∀ v ∈ current, ∀ p ∈ prev, v.key = p.key → Follows R R' v p)
    (hrelated : RelatedTo R known prev) : RelatedTo R' known' current := by
  obtain ⟨_, hmessages', hnodup, happ, hfind⟩ := messages_spec hcur hprev hdistinct hdistinct'
  rw [hmessages, Option.some.injEq] at hmessages'
  subst hmessages'
  obtain ⟨_, happly, -, -, hfind'⟩ := find_applyVictims hknown hdistinctKnown happ hnodup
  rw [hknown', Option.some.injEq] at happly
  subst happly
  intro key r hr
  rw [hfind', hfind] at hr
  cases hv : find VictimCacheinfo.key key current with
  | none =>
    -- a key that is not current: its message is stale, or it was not known
    rw [hv] at hr
    cases hp : find VictimCacheinfo.key key prev with
    | none =>
      rw [hp, Option.map_none] at hr
      obtain ⟨w, hw, -⟩ := hrelated key r hr
      rw [hp] at hw
      cases hw
    | some p =>
      rw [hp, Option.map_some] at hr
      simp [applied] at hr
  | some v =>
    rw [hv] at hr
    refine ⟨v, rfl, ?_⟩
    have hmem := mem_of_find hv
    rcases applied_message hcur hprev hv (find VictimCacheinfo.key key known) with
      hsame | ⟨p, d, hp, hd, ⟨hfully, hsame⟩ | ⟨-, -, hsame⟩⟩
    · rw [hsame, Option.some.injEq] at hr
      exact hr ▸ hself v hmem
    · rw [hsame] at hr
      obtain ⟨w, hw, hg⟩ := hrelated key r hr
      rw [hp] at hw
      cases hw
      have hkeys := (key_of_find hv).trans (key_of_find hp).symm
      exact (hfollows v hmem p (mem_of_find hp) hkeys d r hd hg).1 hfully
    · rw [hsame] at hr
      obtain ⟨e, he, hrecover⟩ := bind_eq_some_iff.1 hr
      obtain ⟨w, hw, hg⟩ := hrelated key e he
      rw [hp] at hw
      cases hw
      have hkeys := (key_of_find hv).trans (key_of_find hp).symm
      exact (hfollows v hmem p (mem_of_find hp) hkeys d e hd hg).2 r hrecover

/-- The victims after a round trip, from what the receiver knew before. -/
theorem recovered_spec :
    ∃ messages known', compressVictims prev current = some messages ∧
      applyVictims known (messages ++ staleVictims current prev) = some known' ∧
      (∀ v ∈ known', v.isComplete = true) ∧ DistinctVictims known' ∧
      (∀ {β : Type} (g : VictimCacheinfo → β),
        (∀ v ∈ current, ∀ p ∈ prev, v.key = p.key → VictimCacheinfo.Tracks g v p) →
        PartOf g known prev → PartOf g known' current) ∧
      (Covers known prev → Covers known' current) := by
  obtain ⟨messages, hmessages, hnodup, happ, hfind⟩ :=
    messages_spec hcur hprev hdistinct hdistinct'
  obtain ⟨known', hknown', hcomplete', hdistinctKnown', hfind'⟩ :=
    find_applyVictims hknown hdistinctKnown happ hnodup
  refine ⟨messages, known', hmessages, hknown', hcomplete', hdistinctKnown', ?_, ?_⟩
  · intro β g htracks hpart
    exact recovered_related hcur hprev hdistinct hdistinct' hknown hdistinctKnown hmessages hknown'
      (fun _ _ => rfl) htracks hpart
  · intro hcovers key hsome
    obtain ⟨v, hv⟩ := Option.isSome_iff_exists.1 hsome
    rw [hfind', hfind, hv]
    rcases applied_message hcur hprev hv (find VictimCacheinfo.key key known) with
      hsame | ⟨p, d, hp, hd, ⟨-, hsame⟩ | ⟨hfully, hcomplete, hsame⟩⟩
    · simp only [hsame, Option.isSome_some]
    · simp only [hsame]
      exact hcovers key (by rw [hp]; rfl)
    · obtain ⟨e, he⟩ := Option.isSome_iff_exists.1 (hcovers key (by rw [hp]; rfl))
      have hdeduped := VictimCacheinfo.isDeduped_of_not hcomplete hd.not_stale
      obtain ⟨r, hr⟩ := VictimCacheinfo.recover_isSome hdeduped hfully
        (hknown e (mem_of_find he))
      rw [he, Option.bind_some, hr] at hsame
      simp only [he, hsame, Option.isSome_some]

end Recovered

end RoundTrip

/-! ## Dirinfo sets -/

/-- All dirinfo sets are complete. -/
def CompleteDirinfos (dirinfos : List (Key × DirinfoSet)) : Prop :=
  ∀ pair ∈ dirinfos, pair.2.isComplete = true

instance (dirinfos : List (Key × DirinfoSet)) : Decidable (CompleteDirinfos dirinfos) :=
  inferInstanceAs (Decidable (∀ pair ∈ dirinfos, pair.2.isComplete = true))

/-- The effect of a message about the dirinfo set of a key. -/
def appliedDirinfo (existing : Option (Key × DirinfoSet)) (message : Key × DirinfoSet) :
    Option (Key × DirinfoSet) :=
  if message.2.isComplete then some message
  else existing.bind fun e => (DirinfoSet.recover message.2 e.2).map fun r => (message.1, r)

/-- A message about a dirinfo set that can be applied. -/
def ApplicableDirinfo (message : Key × DirinfoSet) : Prop :=
  message.2.isComplete = true ∨ message.2.isFullyCompressed = false

section Dirinfos

variable {current prev known messages : List (Key × DirinfoSet)} {pair message : Key × DirinfoSet}

theorem compressDirinfo_spec (hprev : CompleteDirinfos prev) (hpair : pair.2.isComplete = true) :
    (find Prod.fst pair.1 prev = none ∧ compressDirinfo prev pair = some (some pair)) ∨
    ∃ p d, find Prod.fst pair.1 prev = some p ∧
      DirinfoSet.compress pair.2 p.2 = some d ∧
      compressDirinfo prev pair = some
        (if d.isFullyCompressed then none else some (pair.1, d)) := by
  unfold compressDirinfo
  cases hfind : find Prod.fst pair.1 prev with
  | none =>
    refine .inl ⟨rfl, ?_⟩
    simp only [require_bind hpair]
    rfl
  | some p =>
    obtain ⟨d, hd, -⟩ :=
      compress_spec hpair (hprev p (mem_of_find hfind))
    refine .inr ⟨p, d, rfl, hd, ?_⟩
    simp only [hd, some_bind]
    rfl

theorem compressDirinfo_isSome (hprev : CompleteDirinfos prev) (hpair : pair.2.isComplete = true) :
    (compressDirinfo prev pair).isSome = true := by
  rcases compressDirinfo_spec hprev hpair with ⟨-, heq⟩ | ⟨p, d, -, -, heq⟩
  · rw [heq, Option.isSome_some]
  · rw [heq, Option.isSome_some]

theorem applicable_compressDirinfo (hprev : CompleteDirinfos prev)
    (hpair : pair.2.isComplete = true) (h : compressDirinfo prev pair = some (some message)) :
    message.1 = pair.1 ∧ ApplicableDirinfo message := by
  rcases compressDirinfo_spec hprev hpair with ⟨-, heq⟩ | ⟨p, d, -, -, heq⟩
  · rw [heq] at h
    cases h
    exact ⟨rfl, .inl hpair⟩
  · rw [heq] at h
    split at h <;> cases h
    next hfully => exact ⟨rfl, .inr (eq_false_of_ne_true hfully)⟩

theorem applyDirinfo_spec (hknown : CompleteDirinfos known) (happ : ApplicableDirinfo message) :
    ∃ known', applyDirinfo known message = some known' ∧ CompleteDirinfos known' ∧
      ∀ key, find Prod.fst key known' =
        if key = message.1 then appliedDirinfo (find Prod.fst key known) message
        else find Prod.fst key known := by
  unfold applyDirinfo
  cases hfind : find Prod.fst message.1 known with
  | none =>
    by_cases hcomplete : message.2.isComplete = true
    · simp only [hcomplete, if_true]
      refine ⟨_, rfl, ?_, fun key => ?_⟩
      · intro pair hpair
        rcases mem_append.1 hpair with hpair | hpair
        · exact hknown pair hpair
        · rw [mem_singleton.1 hpair]
          exact hcomplete
      · rw [find_append_singleton hfind]
        simp only [appliedDirinfo, hcomplete, if_true]
    · have hfully := happ.resolve_left hcomplete
      simp only [hcomplete, Bool.false_eq_true, if_false, require_bind hfully]
      refine ⟨known, rfl, hknown, fun key => ?_⟩
      split
      · next hkey =>
        subst hkey
        rw [hfind]
        simp only [appliedDirinfo, hcomplete, Bool.false_eq_true, if_false, Option.bind_none]
      · rfl
  | some existing =>
    by_cases hcomplete : message.2.isComplete = true
    · simp only [hcomplete, if_true]
      refine ⟨_, rfl, ?_, fun key => ?_⟩
      · intro pair hpair
        rcases mem_replace hpair with rfl | hpair
        · exact hcomplete
        · exact hknown pair hpair
      · rw [find_replace rfl, hfind]
        simp only [appliedDirinfo, hcomplete, if_true, Option.map_some]
    · have hfully := happ.resolve_left hcomplete
      have hcompressed : message.2.isCompressed = true := by
        rw [DirinfoSet.isComplete_eq_not_isCompressed] at hcomplete
        simpa using hcomplete
      obtain ⟨r, hr, hrc⟩ := recover_isSome hcompressed hfully
        (hknown existing (mem_of_find hfind))
      simp only [hcomplete, Bool.false_eq_true, if_false, require_bind hfully, hr, some_bind]
      refine ⟨_, rfl, ?_, fun key => ?_⟩
      · intro pair hpair
        rcases mem_replace hpair with rfl | hpair
        · exact hrc
        · exact hknown pair hpair
      · rw [find_replace (f := Prod.fst) (b := (message.1, r)) rfl, hfind]
        split
        · next hkey =>
          subst hkey
          rw [hfind]
          simp only [appliedDirinfo, hcomplete, Bool.false_eq_true, if_false, Option.bind_some, hr,
            Option.map_some]
        · rfl

/-- Compression and recovery of complete dirinfo sets do not abort, whatever the receiver knew. -/
theorem dirinfos_isSome (hcur : CompleteDirinfos current) (hprev : CompleteDirinfos prev)
    (hknown : CompleteDirinfos known) :
    ∃ messages known', compressDirinfos prev current = some messages ∧
      applyDirinfos known messages = some known' ∧ CompleteDirinfos known' := by
  obtain ⟨messages, hmessages, hmem⟩ := collect_isSome (compressDirinfo prev)
    fun pair hpair => compressDirinfo_isSome hprev (hcur pair hpair)
  obtain ⟨known', happly, hcomplete⟩ :=
    applyAll_isSome (P := CompleteDirinfos) (Q := ApplicableDirinfo) (l := known)
      (fun l m hl hm => by
        obtain ⟨l', h', hcomplete, -⟩ := applyDirinfo_spec hl hm
        exact ⟨l', h', hcomplete⟩)
      hknown fun m hm => by
        obtain ⟨pair, hpair, heq⟩ := hmem m hm
        exact (applicable_compressDirinfo hprev (hcur pair hpair) heq).2
  exact ⟨messages, known', hmessages, happly, hcomplete⟩

/-- The dirinfo set of each current key after a round trip, as a set of infos. -/
theorem dirinfos_recovered (hcur : CompleteDirinfos current) (hprev : CompleteDirinfos prev)
    (hdistinct : KeyedList.NodupKeys Prod.fst current) :
    ∃ messages known', compressDirinfos prev current = some messages ∧
      applyDirinfos prev messages = some known' ∧
      ∀ pair ∈ current, ∃ set, find Prod.fst pair.1 known' = some (pair.1, set) ∧
        set.isComplete = true ∧ ∀ d, d ∈ set.dirinfoSet ↔ d ∈ pair.2.dirinfoSet := by
  obtain ⟨messages, hmessages, hsub, hfind⟩ :=
    find_collect (compressDirinfo prev)
      (fun pair hpair => compressDirinfo_isSome hprev (hcur pair hpair))
      (fun pair hpair m hm => (applicable_compressDirinfo hprev (hcur pair hpair) hm).1) hdistinct
  have hnodup : KeyedList.NodupKeys Prod.fst messages := List.Nodup.sublist hsub hdistinct
  have happ : ∀ m ∈ messages, ApplicableDirinfo m := by
    intro m hm
    have hsome := (find_eq_some_iff hnodup).2 ⟨hm, rfl⟩
    rw [hfind] at hsome
    obtain ⟨pair, hpair, heq⟩ := bind_eq_some_iff.1 hsome
    have hmem := mem_of_find hpair
    obtain ⟨message, hmessage⟩ :=
      Option.isSome_iff_exists.1 (compressDirinfo_isSome hprev (hcur pair hmem))
    rw [hmessage, Option.getD_some] at heq
    exact (applicable_compressDirinfo hprev (hcur pair hmem) (heq ▸ hmessage)).2
  obtain ⟨known', happly, hcomplete, hfind'⟩ :=
    find_applyAll (f := Prod.fst) (P := CompleteDirinfos) (Q := ApplicableDirinfo)
      (e := appliedDirinfo) (fun l m hl hm => applyDirinfo_spec hl hm) hprev happ hnodup
  refine ⟨messages, known', hmessages, happly, fun pair hpair => ?_⟩
  have hpc := hcur pair hpair
  have hmessage : find Prod.fst pair.1 messages =
      (compressDirinfo prev pair).getD none := by
    rw [hfind, (find_eq_some_iff hdistinct).2 ⟨hpair, rfl⟩, Option.bind_some]
  rcases compressDirinfo_spec hprev hpc with ⟨-, heq⟩ | ⟨p, d, hp, hd, heq⟩
  · refine ⟨pair.2, ?_, hpc, fun _ => Iff.rfl⟩
    rw [hfind', hmessage, heq, Option.getD_some]
    simp only [appliedDirinfo, hpc, if_true]
  · have hpp := hprev p (mem_of_find hp)
    have hkey : p.1 = pair.1 := key_of_find hp
    rw [heq, Option.getD_some] at hmessage
    cases hcomp : d.isCompressed with
    | false =>
      -- the compression fell back to the complete set
      obtain ⟨d', hd', hspec⟩ := DirinfoSet.compress_spec hpc hpp
      rw [hd, Option.some.injEq] at hd'
      subst hd'
      have hsame : d = pair.2 := hspec.resolve_right fun h => by rw [hcomp] at h; cases h.1
      subst hsame
      have hfully : pair.2.isFullyCompressed = false := by
        rw [isFullyCompressed]
        have hmask : (pair.2.deltaBitmap &&& deltaMask == deltaMask) = false :=
          hcomp
        rw [hmask, Bool.false_and, Bool.false_and]
      rw [hfully] at hmessage
      refine ⟨pair.2, ?_, hpc, fun _ => Iff.rfl⟩
      rw [hfind', hmessage]
      simp only [Bool.false_eq_true, if_false, appliedDirinfo, hpc, if_true]
    | true =>
      rcases recover_compress hpc hpp hd hcomp with
        ⟨hfully, hmem⟩ | ⟨hfully, r, hr, hrc, hmem⟩
      · refine ⟨p.2, ?_, hpp, hmem⟩
        rw [hfully] at hmessage
        rw [hfind', hmessage, if_pos rfl, hp, ← hkey]
      · refine ⟨r, ?_, hrc, hmem⟩
        have hnot : d.isComplete = false := by
          rw [DirinfoSet.isComplete_eq_not_isCompressed, hcomp]
          rfl
        rw [hfully] at hmessage
        rw [hfind', hmessage, hp]
        simp only [Bool.false_eq_true, if_false, appliedDirinfo, hnot, Option.bind_some, hr,
          Option.map_some]

end Dirinfos

end VictimSyncset

end Covered.Victim
