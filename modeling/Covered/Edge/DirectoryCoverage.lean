import Covered.Edge.CacheServer

/-!
# The directory and the cached copies of an edge

An edge admits its directory info before it admits the object, and evicts the object before it
evicts its directory info. `Inv` says what this order gives while the steps are interleaved: what an
edge caches or is about to cache is listed, and what is listed is cached, about to be cached, or
about to leave the directory.

Neither half holds in every run. The eviction of a directory info may reach the beacon after the
object was admitted again, and then the new copy is not listed. A copy of an admission that was sent
again may reach the beacon after the object was evicted with its directory info, and then the edge
is listed for nothing; a local admission that fails has the same effect. `Meets` excludes these
cases. `cached_iff_listed` is the result for every run and every edge; `cached_not_listed` has a run
in which an eviction and an admission cross and one with a late copy of an admission.
-/

set_option autoImplicit false

namespace Covered.Edge.DirectoryCoverage

open Cache Common Cooperation Lib.Execution Option CooperationWrapper

/-- An admission of the key at the edge whose directory info is admitted: an answer of the beacon
that the edge will take in is on its way. -/
def Admitting (s : State) (edge : Nat) (key : Key) : Prop :=
  ∃ p ∈ s.admissions, p.id ∉ s.answered ∧ p.edge = edge ∧ p.key = key

instance (s : State) (edge : Nat) (key : Key) : Decidable (Admitting s edge key) :=
  inferInstanceAs (Decidable (∃ p ∈ s.admissions, _))

/-- No admission, eviction or directory update of the key by the edge is pending or in flight, and
no copy of one. -/
def Quiescent (s : State) (edge : Nat) (key : Key) : Prop :=
  (∀ p ∈ s.notifications, ¬ (p.edge = edge ∧ p.key = key)) ∧ ¬ Admitting s edge key ∧
    (edge, key) ∉ s.evictions

instance (s : State) (edge : Nat) (key : Key) : Decidable (Quiescent s edge key) :=
  inferInstanceAs (Decidable (_ ∧ _ ∧ _))

/-- A directory info of the edge stands for a copy, or for an admission or eviction in progress. -/
def Accounted (s : State) (edge : Nat) (key : Key) : Prop :=
  (s.caches edge).isLocalCached key = true ∨ Admitting s edge key ∨ (edge, key) ∈ s.evictions

instance (s : State) (edge : Nat) (key : Key) : Decidable (Accounted s edge key) :=
  inferInstanceAs (Decidable (_ ∨ _ ∨ _))

/-- The edge and the key of a directory eviction that the beacon processes. -/
def evictedDirectory (s : State) : Action → Option (Nat × Key)
  | .evictDirectory index => s.evictions[index]?
  | _ => none

/-- A copy of an admission that the beacon processes after the edge has taken in an answer. -/
def lateAdmission (s : State) : Action → Option Placement
  | .admitDirectory index => s.notifications[index]?.filter fun p => p.id ∈ s.answered
  | _ => none

/-- An admission whose local part fails, and the state without it. -/
def failedAdmission (s : State) : Action → Option (Placement × State)
  | .admitLocal index false => (s.admissions[index]?.filter fun p => p.id ∉ s.answered).map fun p =>
      (p, { s with
        admissions := s.admissions.eraseIdx index
        answered := p.id :: s.answered })
  | _ => none

/-- The condition on a step: an edge whose directory info is evicted neither caches nor admits the
key, and the directory info of a late or of a failed admission stands for something else. -/
structure Meets (s : State) (a : Action) : Prop where
  evicted : ∀ evicted ∈ evictedDirectory s a,
    (s.caches evicted.1).isLocalCached evicted.2 = false ∧ ¬ Admitting s evicted.1 evicted.2
  late : ∀ p ∈ lateAdmission s a, Accounted s p.edge p.key
  failed : ∀ failed ∈ failedAdmission s a, Accounted failed.2 failed.1.edge failed.1.key

instance (s : State) (a : Action) : Decidable (Meets s a) :=
  decidable_of_iff ((∀ evicted ∈ evictedDirectory s a,
      (s.caches evicted.1).isLocalCached evicted.2 = false ∧ ¬ Admitting s evicted.1 evicted.2) ∧
      (∀ p ∈ lateAdmission s a, Accounted s p.edge p.key) ∧
      ∀ failed ∈ failedAdmission s a, Accounted failed.2 failed.1.edge failed.1.key)
    ⟨fun h => ⟨h.1, h.2.1, h.2.2⟩, fun h => ⟨h.evicted, h.late, h.failed⟩⟩

section Invariant

variable (beaconOf : Key → Nat)

/-- The beacon of the key lists the edge. -/
def Listed (s : State) (edge : Nat) (key : Key) : Prop :=
  (s.beacons (beaconOf key)).Listed key edge

instance (s : State) (edge : Nat) (key : Key) : Decidable (Listed beaconOf s edge key) :=
  inferInstanceAs (Decidable ((s.beacons (beaconOf key)).Listed key edge))

/-- What an edge caches or admits is listed, and what is listed is accounted for. -/
structure Inv (s : State) : Prop where
  beacon : ∀ beacon, (s.beacons beacon).Invariant
  cached : ∀ edge key, (s.caches edge).isLocalCached key = true → Listed beaconOf s edge key
  admitting : ∀ edge key, Admitting s edge key → Listed beaconOf s edge key
  accounted : ∀ edge key, Listed beaconOf s edge key → Accounted s edge key

theorem inv_initial : Inv beaconOf initial where
  beacon := fun _ => invariant_initial
  cached := fun _ _ h => by cases h
  admitting := fun _ _ h => by
    obtain ⟨p, hp, -⟩ := h
    cases hp
  accounted := fun _ key h => by
    rw [Listed, CooperationWrapper.Listed] at h
    cases h

/-- A step that neither caches nor lists anything new, nor admits nor evicts. -/
structure SameDirectory (s s' : State) : Prop where
  beacon : ∀ beacon, (s'.beacons beacon).Invariant
  cached : ∀ edge key, (s'.caches edge).isLocalCached key = (s.caches edge).isLocalCached key
  listed : ∀ edge key, Listed beaconOf s' edge key ↔ Listed beaconOf s edge key
  admissions : s'.admissions = s.admissions
  answered : s'.answered = s.answered
  evictions : s'.evictions = s.evictions

variable {beaconOf}

section Same

variable {s s' : State}

theorem Inv.sameDirectory_refl (h : Inv beaconOf s) : SameDirectory beaconOf s s :=
  ⟨h.beacon, fun _ _ => rfl, fun _ _ => Iff.rfl, rfl, rfl, rfl⟩

theorem SameDirectory.inv (h : SameDirectory beaconOf s s') (hinv : Inv beaconOf s) :
    Inv beaconOf s' where
  beacon := h.beacon
  cached := fun edge key hc => by
    rw [h.cached] at hc
    exact (h.listed edge key).2 (hinv.cached edge key hc)
  admitting := fun edge key hp => by
    rw [Admitting, h.admissions, h.answered] at hp
    exact (h.listed edge key).2 (hinv.admitting edge key hp)
  accounted := fun edge key hl => by
    rw [Accounted, Admitting, h.cached, h.admissions, h.answered, h.evictions]
    exact hinv.accounted edge key ((h.listed edge key).1 hl)

/-- The requests and messages of a state do not matter. -/
theorem SameDirectory.congr {s'' : State} (h : SameDirectory beaconOf s s')
    (hcaches : s''.caches = s'.caches) (hbeacons : s''.beacons = s'.beacons)
    (hadmissions : s''.admissions = s'.admissions) (hanswered : s''.answered = s'.answered)
    (hevictions : s''.evictions = s'.evictions) : SameDirectory beaconOf s s'' where
  beacon := by
    rw [hbeacons]
    exact h.beacon
  cached := by
    rw [hcaches]
    exact h.cached
  listed := fun edge key => by
    rw [Listed, hbeacons]
    exact h.listed edge key
  admissions := hadmissions.trans h.admissions
  answered := hanswered.trans h.answered
  evictions := hevictions.trans h.evictions

variable {edge beacon index : Nat} {w : LocalWrite} {phase : WritePhase}

section Requests

variable (h : Inv beaconOf s)
include h

/-- A beacon changes and lists the same edges. -/
theorem Inv.setBeacon {w : CooperationWrapper} (hbeacon : w.Invariant)
    (hlisted : ∀ edge key, w.Listed key edge ↔ (s.beacons beacon).Listed key edge) :
    SameDirectory beaconOf s (s.setBeacon beacon w) := by
  refine ⟨fun b => ?_, fun _ _ => rfl, fun edge key => ?_, rfl, rfl, rfl⟩
  · rw [State.beacons_setBeacon]
    split
    · exact hbeacon
    · exact h.beacon b
  · rw [Listed, State.beacons_setBeacon]
    split
    · next hb => rw [hlisted, Listed, hb]
    · rfl

/-- The cache of an edge changes and has the same keys. -/
theorem Inv.setCache {c : CacheWrapper}
    (hcached : ∀ key, c.isLocalCached key = (s.caches edge).isLocalCached key) :
    SameDirectory beaconOf s (s.setCache edge c) := by
  refine ⟨h.beacon, fun e key => ?_, fun _ _ => Iff.rfl, rfl, rfl, rfl⟩
  rw [State.caches_setCache]
  split
  · next he => rw [hcached, he]
  · rfl

theorem Inv.takeFinishBlock {addr : NetworkAddr} {key : Key}
    (htake : s.takeFinishBlock addr key = some s') : SameDirectory beaconOf s s' := by
  rw [State.takeFinishBlock] at htake
  split at htake
  · cases htake
    exact h.sameDirectory_refl.congr rfl rfl rfl rfl rfl
  · cases htake

/-! ## Gets and writes -/

theorem Inv.lookupDirectory {g : LocalGet} {draw : Nat} {phase : GetPhase}
    (hstep : lookupDirectory beaconOf s g draw = some (s', phase)) :
    SameDirectory beaconOf s s' := by
  have hbeacon := h.beacon (beaconOf g.key)
  simp only [Edge.lookupDirectory, bind_eq_bind] at hstep
  split at hstep
  · obtain ⟨reply, -, hstep⟩ := bind_eq_some_iff.1 hstep
    cases hstep
    exact h.sameDirectory_refl
  · obtain ⟨⟨w, reply⟩, hlookup, hstep⟩ := bind_eq_some_iff.1 hstep
    cases hstep
    have hop : CooperationWrapper.step (s.beacons (beaconOf g.key))
        (.lookupByBeaconServer g.key g.edge g.addr draw) = some (w, .lookup reply) := by
      simp only [CooperationWrapper.step, hlookup, map_some]
    apply h.setBeacon (invariant_step hbeacon hop)
    intro edge key
    exact listed_lookup hbeacon hlookup

/-- No action of a get caches or lists anything. -/
theorem Inv.stepGet {g : LocalGet} {action : GetAction} {phase : GetPhase}
    (hstep : stepGet beaconOf s g action = some (s', phase)) : SameDirectory beaconOf s s' := by
  cases action with
  | lookup draw =>
    simp only [Edge.stepGet] at hstep
    split at hstep
    · exact h.lookupDirectory hstep
    · cases hstep
      exact h.sameDirectory_refl
  | useCachedDirectory target =>
    simp only [Edge.stepGet] at hstep
    split at hstep
    · split at hstep <;> cases hstep <;> exact h.sameDirectory_refl
    · cases hstep
      exact h.sameDirectory_refl
  | receiveLookup | redirect | receiveRedirect | fetchFromCloud =>
    simp only [Edge.stepGet] at hstep
    split at hstep <;> cases hstep <;> exact h.sameDirectory_refl
  | finishBlock =>
    simp only [Edge.stepGet] at hstep
    split at hstep
    · split at hstep
      · next htake =>
        cases hstep
        exact h.takeFinishBlock htake
      · cases hstep
        exact h.sameDirectory_refl
    · cases hstep
      exact h.sameDirectory_refl
  | updateInvalid isSuccessful =>
    simp only [Edge.stepGet] at hstep
    split at hstep
    · cases hstep
      apply h.setCache
      intro key
      exact CacheWrapper.isLocalCached_updateIfInvalidForGetrsp _ _ _ _ _
    · cases hstep
      exact h.sameDirectory_refl

theorem Inv.acquireWritelock
    (hstep : acquireWritelock beaconOf s w = some (s', phase)) : SameDirectory beaconOf s s' := by
  have hbeacon := h.beacon (beaconOf w.key)
  simp only [Edge.acquireWritelock, bind_eq_bind] at hstep
  split at hstep
  · obtain ⟨⟨wrapper, reply⟩, hacquire, hstep⟩ := bind_eq_some_iff.1 hstep
    cases hstep
    have hop : CooperationWrapper.step (s.beacons (beaconOf w.key))
        (.acquireByCacheServer w.key w.edge) = some (wrapper, .acquire reply) := by
      simp only [CooperationWrapper.step, hacquire, map_some]
    apply h.setBeacon (invariant_step hbeacon hop)
    intro edge key
    exact listed_acquire hbeacon hacquire
  · obtain ⟨⟨wrapper, reply⟩, hacquire, hstep⟩ := bind_eq_some_iff.1 hstep
    cases hstep
    have hop : CooperationWrapper.step (s.beacons (beaconOf w.key))
        (.acquireByBeaconServer w.key w.edge w.addr) = some (wrapper, .acquire reply) := by
      simp only [CooperationWrapper.step, hacquire, map_some]
    apply h.setBeacon (invariant_step hbeacon hop)
    intro edge key
    exact listed_acquire hbeacon hacquire

theorem Inv.releaseWritelock {value : Versioned}
    (hstep : releaseWritelock beaconOf s w value = some (s', phase)) :
    SameDirectory beaconOf s s' := by
  have hbeacon := h.beacon (beaconOf w.key)
  simp only [Edge.releaseWritelock, bind_eq_bind] at hstep
  obtain ⟨⟨wrapper, reply⟩, hrelease, hstep⟩ := bind_eq_some_iff.1 hstep
  cases hstep
  have hsame : SameDirectory beaconOf s (s.setBeacon (beaconOf w.key) wrapper) := by
    apply h.setBeacon (invariant_release hbeacon hrelease)
    intro edge key
    exact listed_release hbeacon hrelease
  exact hsame.congr rfl rfl rfl rfl rfl

/-- No action of a write caches or lists anything. -/
theorem Inv.stepWrite {action : WriteAction}
    (hstep : stepWrite beaconOf s w action = some (s', phase)) : SameDirectory beaconOf s s' := by
  cases action with
  | acquire =>
    simp only [Edge.stepWrite] at hstep
    split at hstep
    · exact h.acquireWritelock hstep
    · cases hstep
      exact h.sameDirectory_refl
  | finishBlock =>
    simp only [Edge.stepWrite] at hstep
    split at hstep
    · split at hstep
      · next htake =>
        cases hstep
        exact h.takeFinishBlock htake
      · cases hstep
        exact h.sameDirectory_refl
    · cases hstep
      exact h.sameDirectory_refl
  | invalidate edge =>
    simp only [Edge.stepWrite] at hstep
    split at hstep
    · split at hstep
      · cases hstep
        apply h.setCache
        intro key
        exact CacheWrapper.isLocalCached_invalidate _ _ _
      · cases hstep
        exact h.sameDirectory_refl
    · cases hstep
      exact h.sameDirectory_refl
  | finishInvalidation =>
    simp only [Edge.stepWrite] at hstep
    split at hstep <;> cases hstep <;> exact h.sameDirectory_refl
  | writeToCloud =>
    simp only [Edge.stepWrite] at hstep
    split at hstep
    · cases hstep
      exact h.sameDirectory_refl.congr rfl rfl rfl rfl rfl
    · cases hstep
      exact h.sameDirectory_refl
  | updateLocal isSuccessful =>
    simp only [Edge.stepWrite] at hstep
    split at hstep
    · cases hstep
      apply h.setCache
      intro key
      exact CacheWrapper.isLocalCached_update _ _ _ _ _
    · cases hstep
      exact h.sameDirectory_refl
  | release =>
    simp only [Edge.stepWrite] at hstep
    split at hstep
    · exact h.releaseWritelock hstep
    · cases hstep
      exact h.sameDirectory_refl
    · cases hstep
      exact h.sameDirectory_refl

end Requests

/-! ## Admissions and evictions -/

theorem listed_setBeacon {w : CooperationWrapper} {key : Key} :
    Listed beaconOf (s.setBeacon beacon w) edge key ↔
      if beaconOf key = beacon then w.Listed key edge else Listed beaconOf s edge key := by
  rw [Listed, State.beacons_setBeacon]
  split <;> rfl

section Directory

variable (h : Inv beaconOf s)
include h

/-- The directory info is admitted before the object is; that of a late copy is accounted for. -/
theorem Inv.admitDirectory {p : Placement} (hlate : p.id ∈ s.answered → Accounted s p.edge p.key)
    (hstep : admitDirectory beaconOf s p = some s') : Inv beaconOf s' := by
  have hbeacon := h.beacon (beaconOf p.key)
  simp only [Edge.admitDirectory, bind_eq_bind] at hstep
  obtain ⟨⟨wrapper, reply⟩, hupdate, hstep⟩ := bind_eq_some_iff.1 hstep
  cases hstep
  -- the edge is listed for the key now, and nothing else changes in the directory
  have hlisted : ∀ edge key, Listed beaconOf (s.setBeacon (beaconOf p.key) wrapper) edge key ↔
      (key = p.key ∧ edge = p.edge) ∨ Listed beaconOf s edge key := by
    intro edge key
    rw [listed_setBeacon]
    split
    · next hb =>
      rw [listed_admission hbeacon hupdate, DirectoryInfo.mk.injEq, Listed, hb]
    · next hb =>
      refine ⟨.inr, fun hor => hor.resolve_left ?_⟩
      rintro ⟨rfl, -⟩
      exact hb rfl
  have hadmitting : ∀ edge key, (∃ q ∈ s.admissions ++
      [{ p with isValid := p.isValid && !reply.isBeingWritten }],
      q.id ∉ s.answered ∧ q.edge = edge ∧ q.key = key) ↔
      Admitting s edge key ∨ (p.id ∉ s.answered ∧ p.edge = edge ∧ p.key = key) := by
    intro edge key
    simp only [List.mem_append, List.mem_singleton, or_and_right, exists_or, exists_eq_left]
    rfl
  refine ⟨fun b => ?_, fun edge key hc => ?_, fun edge key hp => ?_, fun edge key hl => ?_⟩
  · rw [State.beacons_setBeacon]
    split
    · exact invariant_updateDirectoryTable hbeacon hupdate
    · exact h.beacon b
  · exact (hlisted edge key).2 (.inr (h.cached edge key hc))
  · rcases (hadmitting edge key).1 hp with hold | ⟨-, rfl, rfl⟩
    · exact (hlisted edge key).2 (.inr (h.admitting edge key hold))
    · exact (hlisted p.edge p.key).2 (.inl ⟨rfl, rfl⟩)
  · have hkeep : Accounted s edge key → Accounted { s.setBeacon (beaconOf p.key) wrapper with
        admissions := s.admissions ++
          [{ p with isValid := p.isValid && !reply.isBeingWritten }] } edge key := by
      rintro (hc | hp | he)
      · exact .inl hc
      · exact .inr (.inl ((hadmitting edge key).2 (.inl hp)))
      · exact .inr (.inr he)
    rcases (hlisted edge key).1 hl with ⟨rfl, rfl⟩ | hold
    · by_cases hanswered : p.id ∈ s.answered
      · exact hkeep (hlate hanswered)
      · exact .inr (.inl ((hadmitting p.edge p.key).2 (.inr ⟨hanswered, rfl, rfl⟩)))
    · exact hkeep (h.accounted edge key hold)

/-- The object of a listed edge enters its cache. -/
theorem Inv.admitLocal {p : Placement} {isSuccessful : Bool} (hp : s.admissions[index]? = some p)
    (hfresh : p.id ∉ s.answered)
    (hmeets : isSuccessful = false → Accounted { s with
      admissions := s.admissions.eraseIdx index
      answered := p.id :: s.answered } p.edge p.key) :
    Inv beaconOf { admitLocalEdgeCache s p isSuccessful with
      admissions := s.admissions.eraseIdx index
      answered := p.id :: s.answered } := by
  have hlisted : Listed beaconOf s p.edge p.key :=
    h.admitting p.edge p.key ⟨p, List.mem_of_getElem? hp, hfresh, rfl, rfl⟩
  have hcached : ∀ edge key,
      ((admitLocalEdgeCache s p isSuccessful).caches edge).isLocalCached key =
      if edge = p.edge ∧ key = p.key ∧ isSuccessful = true then true
      else (s.caches edge).isLocalCached key := by
    intro edge key
    rw [admitLocalEdgeCache, State.caches_setCache]
    by_cases he : edge = p.edge
    · rw [if_pos he, CacheWrapper.isLocalCached_admitObject, he]
      simp only [true_and]
    · rw [if_neg he, if_neg fun hand => he hand.1]
  refine ⟨h.beacon, fun edge key hc => ?_, fun edge key hadm => ?_, fun edge key hl => ?_⟩
  · rw [hcached] at hc
    split at hc
    · next hcond =>
      obtain ⟨rfl, rfl, -⟩ := hcond
      exact hlisted
    · exact h.cached edge key hc
  · obtain ⟨q, hq, hqfresh, hqe⟩ := hadm
    exact h.admitting edge key
      ⟨q, List.mem_of_mem_eraseIdx hq, fun hmem => hqfresh (List.mem_cons_of_mem _ hmem), hqe⟩
  · rw [Accounted, hcached]
    by_cases hcond : edge = p.edge ∧ key = p.key ∧ isSuccessful = true
    · rw [if_pos hcond]
      exact .inl rfl
    · rw [if_neg hcond]
      by_cases hkey : edge = p.edge ∧ key = p.key
      · -- the admission of this step failed
        obtain ⟨rfl, rfl⟩ := hkey
        apply hmeets
        cases isSuccessful with
        | true => exact absurd ⟨rfl, rfl, rfl⟩ hcond
        | false => rfl
      · rcases h.accounted edge key hl with hc | ⟨q, hq, hqfresh, hqe⟩ | he
        · exact .inl hc
        · -- the admission is a different one, so it stays
          have hid : q.id ≠ p.id := fun heq =>
            hkey ⟨hqe.1.symm.trans (congrArg Prod.fst heq),
              hqe.2.symm.trans (congrArg (fun id => id.2.1) heq)⟩
          refine .inr (.inl ⟨q, ?_, fun hmem => ?_, hqe⟩)
          · obtain ⟨i, hi⟩ := List.mem_iff_getElem?.1 hq
            refine List.mem_eraseIdx_iff_getElem?.2 ⟨i, ?_, hi⟩
            rintro rfl
            rw [hp] at hi
            exact hid (congrArg Placement.id (some.inj hi).symm)
          · exact (List.mem_cons.1 hmem).elim hid hqfresh
        · exact .inr (.inr he)

/-- The edge drops an answer to an admission of which it has taken in another one. -/
theorem Inv.dropStale {p : Placement} (hp : s.admissions[index]? = some p)
    (hstale : p.id ∈ s.answered) :
    Inv beaconOf { s with admissions := s.admissions.eraseIdx index } := by
  have hadmitting : ∀ edge key, Admitting { s with admissions := s.admissions.eraseIdx index }
      edge key ↔ Admitting s edge key := by
    intro edge key
    constructor
    · rintro ⟨q, hq, hfresh⟩
      exact ⟨q, List.mem_of_mem_eraseIdx hq, hfresh⟩
    · rintro ⟨q, hq, hfresh, hqe⟩
      obtain ⟨i, hi⟩ := List.mem_iff_getElem?.1 hq
      refine ⟨q, List.mem_eraseIdx_iff_getElem?.2 ⟨i, ?_, hi⟩, hfresh, hqe⟩
      rintro rfl
      rw [hp] at hi
      exact hfresh (some.inj hi ▸ hstale)
  refine ⟨h.beacon, h.cached, fun edge key hadm => ?_, fun edge key hl => ?_⟩
  · exact h.admitting edge key ((hadmitting edge key).1 hadm)
  · rcases h.accounted edge key hl with hc | hp | he
    · exact .inl hc
    · exact .inr (.inl ((hadmitting edge key).2 hp))
    · exact .inr (.inr he)

/-- More evictions in progress account for more directory infos. -/
theorem Inv.addEvictions (added : List (Nat × Key)) :
    Inv beaconOf { s with evictions := s.evictions ++ added } :=
  ⟨h.beacon, h.cached, h.admitting, fun edge key hl => by
    rcases h.accounted edge key hl with hc | hp | he
    · exact .inl hc
    · exact .inr (.inl hp)
    · exact .inr (.inr (List.mem_append_left _ he))⟩

/-- An evicted object leaves its directory info to a pending eviction. -/
theorem Inv.evictLocal (edge : Nat) (key : Key) :
    Inv beaconOf (evictLocalEdgeCache s edge key) := by
  have hcached : ∀ e k, ((evictLocalEdgeCache s edge key).caches e).isLocalCached k =
      if e = edge ∧ k = key then false else (s.caches e).isLocalCached k := by
    intro e k
    change ((s.setCache edge ((s.caches edge).evict key)).caches e).isLocalCached k = _
    rw [State.caches_setCache]
    by_cases he : e = edge
    · rw [if_pos he, CacheWrapper.isLocalCached_evict, he]
      simp only [true_and]
    · rw [if_neg he, if_neg fun hand => he hand.1]
  refine ⟨h.beacon, fun e k hc => ?_, h.admitting, fun e k hl => ?_⟩
  · rw [hcached] at hc
    split at hc
    · cases hc
    · exact h.cached e k hc
  · rw [Accounted, hcached]
    by_cases hkey : e = edge ∧ k = key
    · obtain ⟨rfl, rfl⟩ := hkey
      exact .inr (.inr (List.mem_append_right _ (List.mem_singleton_self _)))
    · rw [if_neg hkey]
      rcases h.accounted e k hl with hc | hp | he
      · exact .inl hc
      · exact .inr (.inl hp)
      · exact .inr (.inr (List.mem_append_left _ he))

/-- A directory info without copy and admission is evicted. -/
theorem Inv.evictDirectory {key : Key} (hevicted : s.evictions[index]? = some (edge, key))
    (huncached : (s.caches edge).isLocalCached key = false) (hidle : ¬ Admitting s edge key)
    (hstep : evictDirectory beaconOf s edge key = some s') :
    Inv beaconOf { s' with evictions := s.evictions.eraseIdx index } := by
  have hbeacon := h.beacon (beaconOf key)
  simp only [Edge.evictDirectory, bind_eq_bind] at hstep
  obtain ⟨⟨wrapper, reply⟩, hupdate, hstep⟩ := bind_eq_some_iff.1 hstep
  cases hstep
  have hlisted : ∀ e k, Listed beaconOf (s.setBeacon (beaconOf key) wrapper) e k ↔
      ¬ (k = key ∧ e = edge) ∧ Listed beaconOf s e k := by
    intro e k
    rw [listed_setBeacon]
    split
    · next hb =>
      rw [listed_eviction hbeacon hupdate, DirectoryInfo.mk.injEq, Listed, hb]
    · next hb =>
      refine ⟨fun hl => ⟨?_, hl⟩, fun hand => hand.2⟩
      rintro ⟨rfl, -⟩
      exact hb rfl
  refine ⟨fun b => ?_, fun e k hc => ?_, fun e k hp => ?_, fun e k hl => ?_⟩
  · show ((s.setBeacon (beaconOf key) wrapper).beacons b).Invariant
    rw [State.beacons_setBeacon]
    split
    · exact invariant_updateDirectoryTable hbeacon hupdate
    · exact h.beacon b
  · refine (hlisted e k).2 ⟨?_, h.cached e k hc⟩
    rintro ⟨rfl, rfl⟩
    have hc' : (s.caches e).isLocalCached k = true := hc
    rw [huncached] at hc'
    cases hc'
  · refine (hlisted e k).2 ⟨?_, h.admitting e k hp⟩
    rintro ⟨rfl, rfl⟩
    exact hidle hp
  · obtain ⟨hother, hold⟩ := (hlisted e k).1 hl
    rcases h.accounted e k hold with hc | hp | he
    · exact .inl hc
    · exact .inr (.inl hp)
    · -- the pending eviction is a different one, so it stays
      refine .inr (.inr ?_)
      obtain ⟨i, hi⟩ := List.mem_iff_getElem?.1 he
      refine List.mem_eraseIdx_iff_getElem?.2 ⟨i, ?_, hi⟩
      rintro rfl
      rw [hevicted] at hi
      cases hi
      exact hother ⟨rfl, rfl⟩

/-! ## Steps and runs -/

/-- Every step that meets the condition keeps the invariant. -/
theorem Inv.step {a : Action} {out : Response} (hmeets : Meets s a)
    (hstep : step beaconOf s a = some (s', out)) : Inv beaconOf s' := by
  -- a step that only changes the requests and messages
  have hsame : ∀ {t : State}, t.caches = s.caches → t.beacons = s.beacons →
      t.admissions = s.admissions → t.answered = s.answered → t.evictions = s.evictions →
      Inv beaconOf t := fun hcaches hbeacons hadmissions hanswered hevictions =>
    (h.sameDirectory_refl.congr hcaches hbeacons hadmissions hanswered hevictions).inv h
  cases a with
  | startGet edge addr key =>
    cases hstep
    exact hsame rfl rfl rfl rfl rfl
  | get index action =>
    simp only [Edge.step] at hstep
    split at hstep
    · cases hstep
      exact h
    · obtain ⟨⟨s₁, phase⟩, haction, hstep⟩ := bind_eq_some_iff.1 hstep
      cases hstep
      refine SameDirectory.inv (s := s) ?_ h
      exact (h.stepGet haction).congr rfl rfl rfl rfl rfl
  | respondGet index =>
    simp only [Edge.step] at hstep
    split at hstep <;> cases hstep <;> exact hsame rfl rfl rfl rfl rfl
  | startWrite edge addr key value =>
    cases hstep
    exact hsame rfl rfl rfl rfl rfl
  | write index action =>
    simp only [Edge.step] at hstep
    split at hstep
    · cases hstep
      exact h
    · obtain ⟨⟨s₁, phase⟩, haction, hstep⟩ := bind_eq_some_iff.1 hstep
      cases hstep
      refine SameDirectory.inv (s := s) ?_ h
      exact (h.stepWrite haction).congr rfl rfl rfl rfl rfl
  | respondWrite index =>
    simp only [Edge.step] at hstep
    split at hstep <;> cases hstep <;> exact hsame rfl rfl rfl rfl rfl
  | admitFetched _ | admitWritten _ | sendFetched _ | sendWritten _ | fetchForPlacement _ _
  | fetchFromCloudForPlacement _ | notifyForPlacement _ _ | resendAdmission _ =>
    have heq := sameButSent_of_step rfl hstep
    exact hsame heq.caches heq.beacons heq.admissions heq.answered heq.evictions
  | admitDirectory index =>
    simp only [Edge.step] at hstep
    split at hstep
    · cases hstep
      exact h
    · next p hp =>
      obtain ⟨s₁, hadmitted, hstep⟩ := bind_eq_some_iff.1 hstep
      cases hstep
      have hinv := h.admitDirectory (fun hanswered => hmeets.late p ?_) hadmitted
      swap
      · rw [lateAdmission, hp]
        exact filter_eq_some_iff.2 ⟨rfl, decide_eq_true hanswered⟩
      refine SameDirectory.inv (s := s₁) ?_ hinv
      exact hinv.sameDirectory_refl.congr rfl rfl rfl rfl rfl
  | admitLocal index isSuccessful =>
    simp only [Edge.step] at hstep
    split at hstep
    · cases hstep
      exact h
    · next p hp =>
      split at hstep
      · next hstale =>
        cases hstep
        exact h.dropStale hp hstale
      · next hfresh =>
        cases hstep
        apply h.admitLocal hp hfresh
        rintro rfl
        refine hmeets.failed (p, _) ?_
        rw [failedAdmission, hp, filter_some, if_pos (decide_eq_true hfresh)]
        exact mem_some_self _
  | resendEviction index =>
    cases hstep
    exact h.addEvictions _
  | evictLocal edge key =>
    simp only [Edge.step] at hstep
    split at hstep <;> cases hstep
    · exact h.evictLocal edge key
    · exact h
  | evictDirectory index =>
    simp only [Edge.step] at hstep
    split at hstep
    · cases hstep
      exact h
    · next edge key hevicted =>
      obtain ⟨s₁, hevict, hstep⟩ := bind_eq_some_iff.1 hstep
      cases hstep
      obtain ⟨huncached, hidle⟩ := hmeets.evicted (edge, key) hevicted
      exact h.evictDirectory hevicted huncached hidle hevict

end Directory

end Same

end Invariant

/-- In every run whose steps all meet the condition, an edge caches a key iff the directory entry of
the key has the edge, whenever nothing of this edge and key is pending. -/
theorem cached_iff_listed (beaconOf : Key → Nat) {tr : List (Action × Response)} {s : State}
    (hrun : Runs (step beaconOf) Meets initial tr s) :
    ∀ edge key, Quiescent s edge key →
      ((s.caches edge).isLocalCached key = true ↔ (s.beacons (beaconOf key)).Listed key edge) := by
  have hinv : Inv beaconOf s := hrun.invariant (P := Inv beaconOf) (inv_initial beaconOf)
    fun h hmeets hstep => h.step hmeets hstep
  rintro edge key ⟨-, hidle, hgone⟩
  constructor
  · exact hinv.cached edge key
  · intro hlisted
    rcases hinv.accounted edge key hlisted with hcached | hadmitting | heviction
    · exact hcached
    · exact absurd hadmitting hidle
    · exact absurd heviction hgone

/-! ## Concrete runs -/

/-- Edge `0` is the beacon of every key. -/
def beaconZero : Key → Nat := fun _ => 0

/-- A get at edge `1` reads the cloud and asks for the admission of what it read. -/
def getAndAsk : List Action :=
  [.startGet 1 ⟨[], 1⟩ ⟨[7]⟩, .get 0 (.lookup 0), .get 0 .receiveLookup, .get 0 .fetchFromCloud,
    .get 0 (.updateInvalid true), .admitFetched 0]

/-- The beacon admits the directory info and the edge admits the object. -/
def admitAsked : List Action := [.admitDirectory 0, .admitLocal 0 true, .respondGet 0]

/-- The admission is sent twice; the second copy is still under way. -/
def admitResent : List Action := getAndAsk ++ .resendAdmission 0 :: admitAsked

/-- The beacon processes the second copy, and the edge drops the answer. -/
def processCopy : List Action := [.admitDirectory 0, .admitLocal 0 true]

/-- Nothing of the key is pending at edge `1`, which caches it or not and is listed or not. -/
def endsWith (cached listed : Bool) (s : State) : Bool :=
  decide (Quiescent s 1 ⟨[7]⟩ ∧ (s.caches 1).isLocalCached ⟨[7]⟩ = cached ∧
    ((s.beacons 0).Listed ⟨[7]⟩ 1 ↔ listed = true))

/-- A copy that is admitted again before the directory info of the first one is evicted stays in the
cache and is not listed. A copy of an admission that is processed after the eviction leaves the edge
listed, which caches nothing. -/
theorem cached_not_listed :
    (¬ ∀ (beaconOf : Key → Nat) tr s, Runs (step beaconOf) anyAction initial tr s →
      ∀ edge key, Quiescent s edge key →
        (s.caches edge).isLocalCached key = true → (s.beacons (beaconOf key)).Listed key edge) ∧
    ¬ ∀ (beaconOf : Key → Nat) tr s, Runs (step beaconOf) anyAction initial tr s →
      ∀ edge key, Quiescent s edge key →
        (s.beacons (beaconOf key)).Listed key edge → (s.caches edge).isLocalCached key = true := by
  constructor
  · intro h
    have hexec : (exec (step beaconZero) anyAction initial (getAndAsk ++ admitAsked ++
        .evictLocal 1 ⟨[7]⟩ :: getAndAsk ++ admitAsked ++ [.evictDirectory 0])).any
          (endsWith true false) = true := by
      decide +kernel
    obtain ⟨tr, s, hrun, -, hend⟩ := exists_runs_of_any hexec
    obtain ⟨hquiescent, hcached, hlisted⟩ := of_decide_eq_true hend
    exact Bool.false_ne_true (hlisted.1 (h beaconZero tr s hrun 1 ⟨[7]⟩ hquiescent hcached))
  · intro h
    have hexec : (exec (step beaconZero) anyAction initial (admitResent ++
        [.evictLocal 1 ⟨[7]⟩, .evictDirectory 0] ++ processCopy)).any
          (endsWith false true) = true := by
      decide +kernel
    obtain ⟨tr, s, hrun, -, hend⟩ := exists_runs_of_any hexec
    obtain ⟨hquiescent, hcached, hlisted⟩ := of_decide_eq_true hend
    have hkey := h beaconZero tr s hrun 1 ⟨[7]⟩ hquiescent (hlisted.2 rfl)
    exact Bool.false_ne_true (hcached.symm.trans hkey)

/-- The second copy of an admission is processed while the object is cached, and the object is
evicted with its directory info, by an eviction that is sent twice, before it is admitted again. -/
theorem cached_iff_listed_readmitted :
    ∃ tr s, Runs (step beaconZero) Meets initial tr s ∧ Quiescent s 1 ⟨[7]⟩ ∧
      (s.caches 1).isLocalCached ⟨[7]⟩ = true ∧ (s.beacons 0).Listed ⟨[7]⟩ 1 := by
  have hexec : (exec (step beaconZero) Meets initial
      (admitResent ++ processCopy ++ [.evictLocal 1 ⟨[7]⟩, .resendEviction 0, .evictDirectory 0,
        .evictDirectory 0] ++ getAndAsk ++ admitAsked)).any (endsWith true true) = true := by
    decide +kernel
  obtain ⟨tr, s, hrun, -, hend⟩ := exists_runs_of_any hexec
  obtain ⟨hquiescent, hcached, -⟩ := of_decide_eq_true hend
  exact ⟨tr, s, hrun, hquiescent, hcached,
    (cached_iff_listed beaconZero hrun 1 ⟨[7]⟩ hquiescent).1 hcached⟩

end Covered.Edge.DirectoryCoverage
