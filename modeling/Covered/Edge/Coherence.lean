import Covered.Edge.CacheServer

/-!
# Coherence of the edge caches

A write invalidates all copies before the cloud applies it, so a copy that is valid has the value
of the latest write. This holds as long as every copy that becomes valid is undisturbed: its value
is the latest one, its edge is listed in the directory, and no write of the key is past the decision
of the beacon and not yet applied. The handlers do not check this. A value is fetched long before
the copy becomes valid, a write of a key that is cached nowhere takes no lock, and an eviction
reaches the directory late, so a copy can become valid with a value that a finished write has
replaced (`stale_read_after_write`).

`no_stale_read` says that there is no other way: in every run in which every copy that becomes valid
is undisturbed and no edge with a valid copy leaves the directory, each get returns a value that is
not older than any write answered before the get started.
-/

set_option autoImplicit false

namespace Covered.Edge

open Cache Common Cooperation Lib.Execution Function Option List CooperationWrapper

/-! ## The condition -/

/-- The beacon has decided about the lock of the write and the cloud has not applied it. -/
def WritePhase.Unapplied : WritePhase → Prop
  | .invalidating _ => True
  | .acquired _ => True
  | _ => False

instance (phase : WritePhase) : Decidable phase.Unapplied :=
  match phase with
  | .invalidating _ => .isTrue trivial
  | .acquired _ => .isTrue trivial
  | .acquiring => .isFalse id
  | .blocked => .isFalse id
  | .written _ _ => .isFalse id
  | .updated _ _ => .isFalse id
  | .finished _ => .isFalse id

section Condition

variable (beaconOf : Key → Nat)

/-- A copy of an edge may become valid with the value: it is the latest one, the edge is listed, and
no write of the key is under way to the cloud. -/
def Undisturbed (s : State) (edge : Nat) (key : Key) (value : Versioned) : Prop :=
  value.version = (s.cloud key).version ∧ (s.beacons (beaconOf key)).Listed key edge ∧
    ∀ w ∈ s.writes, ¬ (w.key = key ∧ w.phase.Unapplied)

instance (s : State) (edge : Nat) (key : Key) (value : Versioned) :
    Decidable (Undisturbed beaconOf s edge key value) :=
  inferInstanceAs (Decidable (_ ∧ _ ∧ ∀ w ∈ s.writes, ¬ (_ ∧ _)))

/-- The copy that an action of a get makes valid. -/
def GetAction.validates (s : State) (g : LocalGet) : GetAction → Option (Nat × Key × Versioned)
  | .updateInvalid isSuccessful =>
      match g.phase with
      | .fetched value =>
          if (s.caches g.edge).isLocalCached g.key = true ∧ (s.caches g.edge).get g.key = none ∧
            isSuccessful = true then some (g.edge, g.key, value) else none
      | _ => none
  | _ => none

/-- The copy that an action of a write makes valid. -/
def WriteAction.validates (s : State) (w : LocalWrite) :
    WriteAction → Option (Nat × Key × Versioned)
  | .updateLocal isSuccessful =>
      match w.phase with
      | .written value _ =>
          if (s.caches w.edge).isLocalCached w.key = true ∧ isSuccessful = true then
            some (w.edge, w.key, value) else none
      | _ => none
  | _ => none

/-- The copy that an action makes valid. -/
def Action.validates (s : State) : Action → Option (Nat × Key × Versioned)
  | .get index action => (s.gets[index]?).bind fun g => action.validates s g
  | .write index action => (s.writes[index]?).bind fun w => action.validates s w
  | .admitLocal index isSuccessful => (s.admissions[index]?).bind fun p =>
      if p.id ∉ s.answered ∧ p.isValid = true ∧ isSuccessful = true then
        some (p.edge, p.key, (s.caches p.edge).admittedValue p.key p.value) else none
  | _ => none

/-- The edge and the key that an action removes from the directory. -/
def Action.evicts (s : State) : Action → Option (Nat × Key)
  | .evictDirectory index => s.evictions[index]?
  | _ => none

/-- The condition on a step: a copy that becomes valid is undisturbed, and an edge that leaves the
directory has no valid copy. -/
def Meets (s : State) (a : Action) : Prop :=
  (∀ copy ∈ a.validates s, Undisturbed beaconOf s copy.1 copy.2.1 copy.2.2) ∧
    ∀ evicted ∈ a.evicts s, (s.caches evicted.1).get evicted.2 = none

instance (s : State) (a : Action) : Decidable (Meets beaconOf s a) :=
  inferInstanceAs (Decidable ((∀ copy ∈ a.validates s, _) ∧ ∀ evicted ∈ a.evicts s, _))

end Condition

/-! ## The invariant -/

/-- The value that a get has. -/
def GetPhase.value? : GetPhase → Option Versioned
  | .redirected (.kCooperativeHit value) => some value
  | .fetched value => some value
  | .finished value => some value
  | _ => none

/-- The value that the cloud has applied for a write. -/
def WritePhase.value? : WritePhase → Option Versioned
  | .written value _ => some value
  | .updated value _ => some value
  | .finished value => some value
  | _ => none

/-- A valid copy of the edge may exist while a write is in the phase. -/
def WritePhase.MayKeep : WritePhase → Nat → Prop
  | .invalidating remaining, edge => edge ∈ remaining
  | .acquired _, _ => False
  | _, _ => True

/-- What holds for a get in progress. -/
def GetOk (s : State) (g : LocalGet) : Prop :=
  ∀ version ∈ g.respondedBefore, version ≤ (s.cloud g.key).version ∧
    ∀ value ∈ g.phase.value?, version ≤ value.version

/-- What holds for a write in progress. -/
structure WriteOk (s : State) (w : LocalWrite) : Prop where
  invalidated : ∀ edge value, (s.caches edge).get w.key = some value → w.phase.MayKeep edge
  applied : ∀ value ∈ w.phase.value?, value.version ≤ (s.cloud w.key).version

/-- What holds for the copies: a valid one has the latest value and is listed. -/
structure CopiesOk (beaconOf : Key → Nat) (s : State) : Prop where
  beacon : ∀ edge, (s.beacons edge).Invariant
  current : ∀ edge key value, (s.caches edge).get key = some value →
    value.version = (s.cloud key).version
  listed : ∀ edge key value, (s.caches edge).get key = some value →
    (s.beacons (beaconOf key)).Listed key edge
  responded : ∀ key, ∀ version ∈ s.responded key, version ≤ (s.cloud key).version

/-- The invariant. -/
structure Coherent (beaconOf : Key → Nat) (s : State) : Prop where
  copies : CopiesOk beaconOf s
  gets : ∀ g ∈ s.gets, GetOk s g
  writes : ∀ w ∈ s.writes, WriteOk s w

/-- A change of the parties that keeps what holds for copies and for requests in progress. -/
structure Keeps (beaconOf : Key → Nat) (s s' : State) : Prop where
  copies : CopiesOk beaconOf s'
  grow : ∀ key, (s.cloud key).version ≤ (s'.cloud key).version
  writes : ∀ w ∈ s.writes, WriteOk s w → WriteOk s' w

section Invariant

variable {beaconOf : Key → Nat} {s s' : State}

variable {g : LocalGet}

theorem GetOk.mono (h : GetOk s g) (hgrow : ∀ key, (s.cloud key).version ≤ (s'.cloud key).version) :
    GetOk s' g := by
  intro version hversion
  obtain ⟨hle, hvalue⟩ := h version hversion
  exact ⟨le_trans hle (hgrow g.key), hvalue⟩

/-- The phase of a get changes without a new value. -/
theorem GetOk.setPhase (h : GetOk s g) {phase : GetPhase}
    (hphase : ∀ value ∈ phase.value?, value ∈ g.phase.value? ∨
      value.version = (s.cloud g.key).version) : GetOk s { g with phase := phase } := by
  intro version hversion
  obtain ⟨hle, hvalue⟩ := h version hversion
  refine ⟨hle, fun value hv => ?_⟩
  rcases hphase value hv with hold | hcurrent
  · exact hvalue value hold
  · rw [hcurrent]
    exact hle

theorem Coherent.keeps_refl (h : Coherent beaconOf s) : Keeps beaconOf s s :=
  ⟨h.copies, fun _ => le_refl _, fun _ _ hw => hw⟩

/-- What holds is about the parties: requests and messages may come and go. -/
theorem Keeps.congr {t : State} (h : Keeps beaconOf s s') (hcloud : t.cloud = s'.cloud)
    (hcaches : t.caches = s'.caches) (hbeacons : t.beacons = s'.beacons)
    (hresponded : t.responded = s'.responded) : Keeps beaconOf s t := by
  refine ⟨⟨?_, ?_, ?_, ?_⟩, ?_, ?_⟩
  · rw [hbeacons]
    exact h.copies.beacon
  · rw [hcaches, hcloud]
    exact h.copies.current
  · rw [hcaches, hbeacons]
    exact h.copies.listed
  · rw [hresponded, hcloud]
    exact h.copies.responded
  · rw [hcloud]
    exact h.grow
  · intro w hw hok
    obtain ⟨hinvalidated, happlied⟩ := h.writes w hw hok
    exact ⟨hcaches ▸ hinvalidated, hcloud ▸ happlied⟩

/-- The invariant after a change of the parties and of the lists of requests. -/
theorem Coherent.of_keeps (h : Coherent beaconOf s) (hkeeps : Keeps beaconOf s s')
    (hgets : ∀ g ∈ s'.gets, g ∈ s.gets ∨ GetOk s' g)
    (hwrites : ∀ w ∈ s'.writes, w ∈ s.writes ∨ WriteOk s' w) : Coherent beaconOf s' := by
  refine ⟨hkeeps.copies, ?_, ?_⟩
  · intro g hg
    rcases hgets g hg with hold | hok
    · exact (h.gets g hold).mono hkeeps.grow
    · exact hok
  · intro w hw
    rcases hwrites w hw with hold | hok
    · exact hkeeps.writes w hold (h.writes w hold)
    · exact hok

/-! ## Changes of one party -/

/-- A beacon changes and still lists every edge with a valid copy. -/
theorem Coherent.keeps_setBeacon (h : Coherent beaconOf s) {beacon : Nat} {w : CooperationWrapper}
    (hinv : w.Invariant)
    (hlisted : ∀ edge key value, beaconOf key = beacon → (s.caches edge).get key = some value →
      (s.beacons beacon).Listed key edge → w.Listed key edge) :
    Keeps beaconOf s (s.setBeacon beacon w) := by
  refine ⟨⟨?_, h.copies.current, ?_, h.copies.responded⟩, fun _ => le_refl _, ?_⟩
  · intro edge
    show ((update s.beacons beacon w) edge).Invariant
    rw [update_apply]
    split
    · exact hinv
    · exact h.copies.beacon edge
  · intro edge key value hvalue
    have hold := h.copies.listed edge key value hvalue
    show ((update s.beacons beacon w) (beaconOf key)).Listed key edge
    rw [update_apply]
    split
    · next hb =>
      rw [hb] at hold
      exact hlisted edge key value hb hvalue hold
    · exact hold
  · exact fun w _ hw => ⟨hw.invalidated, hw.applied⟩

/-- The cache of an edge changes, and each copy that is valid afterwards was valid before or is
undisturbed. -/
theorem Coherent.keeps_setCache (h : Coherent beaconOf s) {edge : Nat} {c : CacheWrapper}
    (hvalid : ∀ key value, c.get key = some value → (s.caches edge).get key = some value ∨
      Undisturbed beaconOf s edge key value) :
    Keeps beaconOf s (s.setCache edge c) := by
  have hget : ∀ e key value, ((s.setCache edge c).caches e).get key = some value →
      (s.caches e).get key = some value ∨ Undisturbed beaconOf s e key value := by
    intro e key value hvalue
    change ((update s.caches edge c) e).get key = some value at hvalue
    rw [update_apply] at hvalue
    split at hvalue
    · next he =>
      subst he
      exact hvalid key value hvalue
    · exact .inl hvalue
  refine ⟨⟨h.copies.beacon, ?_, ?_, h.copies.responded⟩, fun _ => le_refl _, ?_⟩
  · intro e key value hvalue
    rcases hget e key value hvalue with hold | hnew
    · exact h.copies.current e key value hold
    · exact hnew.1
  · intro e key value hvalue
    rcases hget e key value hvalue with hold | hnew
    · exact h.copies.listed e key value hold
    · exact hnew.2.1
  · intro w hw hok
    refine ⟨fun e value hvalue => ?_, hok.applied⟩
    rcases hget e w.key value hvalue with hold | hnew
    · exact hok.invalidated e value hold
    · -- no write of the key is under way, so the phase does not restrict the copies
      have hnot := hnew.2.2 w hw
      cases hphase : w.phase with
      | invalidating remaining => exact absurd ⟨rfl, hphase ▸ trivial⟩ hnot
      | acquired lockResult => exact absurd ⟨rfl, hphase ▸ trivial⟩ hnot
      | _ => trivial

variable {key : Key} {value : Versioned}

/-- The cloud applies a write when no copy of the key is valid. -/
theorem Coherent.keeps_writeToCloud (h : Coherent beaconOf s)
    (hnone : ∀ edge, (s.caches edge).get key = none) (hnext : (s.cloud key).version ≤ value.version)
    :
    Keeps beaconOf s { s with cloud := update s.cloud key value } := by
  have hgrow : ∀ k, (s.cloud k).version ≤ ((update s.cloud key value) k).version := by
    intro k
    rw [update_apply]
    split
    · next hk => rw [hk]; exact hnext
    · exact le_refl _
  refine ⟨⟨h.copies.beacon, ?_, h.copies.listed, ?_⟩, hgrow, ?_⟩
  · intro edge k v hv
    show v.version = ((update s.cloud key value) k).version
    rw [update_apply]
    split
    · next hk =>
      rw [hk] at hv
      have hv' := (hnone edge).symm.trans hv
      cases hv'
    · exact h.copies.current edge k v hv
  · intro k version hversion
    exact le_trans (h.copies.responded k version hversion) (hgrow k)
  · intro w hw hok
    exact ⟨hok.invalidated, fun v hv => le_trans (hok.applied v hv) (hgrow w.key)⟩

/-! ## Actions of a get -/

/-- A read of a cache yields the latest value. -/
theorem Coherent.value_redirected (h : Coherent beaconOf s) {target : Nat}
    (hvalue : value ∈ (GetPhase.redirected (processRedirectedGet s target key)).value?) :
    value.version = (s.cloud key).version := by
  unfold processRedirectedGet at hvalue
  split at hvalue
  · next v hget =>
    cases hvalue
    exact h.copies.current target key _ hget
  · split at hvalue
    · cases hvalue
    · cases hvalue

theorem value?_redirectTo (g : LocalGet) (target : Nat) : (redirectTo g target).value? = none := by
  unfold redirectTo
  split <;> rfl

theorem value?_afterLookup (g : LocalGet) (reply : LookupReply) :
    (afterLookup g reply).value? = none := by
  unfold afterLookup
  split
  · rfl
  · split
    · exact value?_redirectTo g _
    · rfl

theorem value?_afterRedirect (answer : RedirectedAnswer) :
    (afterRedirect answer).value? = (GetPhase.redirected answer).value? := by
  cases answer <;> rfl

/-- A lookup keeps the invariant and yields no value. -/
theorem Coherent.lookupDirectory (h : Coherent beaconOf s) {draw : Nat} {phase : GetPhase}
    (hstep : lookupDirectory beaconOf s g draw = some (s', phase)) :
    Keeps beaconOf s s' ∧ phase.value? = none ∧ s'.cloud = s.cloud ∧ s'.writes = s.writes := by
  have hbeacon := h.copies.beacon (beaconOf g.key)
  simp only [Edge.lookupDirectory, bind_eq_bind] at hstep
  split at hstep
  · obtain ⟨reply, -, hstep⟩ := bind_eq_some_iff.1 hstep
    cases hstep
    refine ⟨h.keeps_refl, ?_, rfl, rfl⟩
    split <;> rfl
  · obtain ⟨⟨w, reply⟩, hlookup, hstep⟩ := bind_eq_some_iff.1 hstep
    cases hstep
    refine ⟨?_, rfl, rfl, rfl⟩
    apply h.keeps_setBeacon
    · have hop : CooperationWrapper.step (s.beacons (beaconOf g.key))
          (.lookupByBeaconServer g.key g.edge g.addr draw) = some (w, .lookup reply) := by
        simp only [CooperationWrapper.step, hlookup, map_some]
      exact invariant_step hbeacon hop
    · intro edge key value _ _ hlisted
      exact (listed_lookup hbeacon hlookup).2 hlisted

theorem takeFinishBlock_eq {addr : NetworkAddr} (h : s.takeFinishBlock addr key = some s') :
    ∃ messages, s' = { s with finishBlocks := messages } := by
  unfold State.takeFinishBlock at h
  split at h
  · cases h
    exact ⟨_, rfl⟩
  · cases h

/-- An action of a get that meets the condition. -/
theorem Coherent.stepGet (h : Coherent beaconOf s) (hg : g ∈ s.gets) {action : GetAction}
    {phase : GetPhase}
    (hmeets : ∀ copy ∈ action.validates s g, Undisturbed beaconOf s copy.1 copy.2.1 copy.2.2)
    (hstep : stepGet beaconOf s g action = some (s', phase)) :
    Keeps beaconOf s s' ∧ GetOk s' { g with phase := phase } ∧ s'.writes = s.writes := by
  have hok := h.gets g hg
  -- an action that is not enabled, or that moves the get on without a new value
  have hsame : ∀ {p : GetPhase}, (∀ value ∈ p.value?, value ∈ g.phase.value? ∨
      value.version = (s.cloud g.key).version) →
      Keeps beaconOf s s ∧ GetOk s { g with phase := p } ∧ s.writes = s.writes :=
    fun hp => ⟨h.keeps_refl, hok.setPhase hp, rfl⟩
  cases action with
  | lookup draw =>
    simp only [Edge.stepGet] at hstep
    split at hstep
    · obtain ⟨hkeeps, hvalue, hcloud, hwrites⟩ := h.lookupDirectory hstep
      refine ⟨hkeeps, (hok.mono hkeeps.grow).setPhase ?_, hwrites⟩
      intro value hv
      rw [hvalue] at hv
      cases hv
    · cases hstep
      exact hsame fun _ hv => .inl hv
  | useCachedDirectory target =>
    simp only [Edge.stepGet] at hstep
    split at hstep
    · split at hstep
      · cases hstep
        exact hsame fun value hv => by cases hv
      · cases hstep
        refine hsame fun value hv => ?_
        rw [value?_redirectTo] at hv
        cases hv
    · cases hstep
      exact hsame fun _ hv => .inl hv
  | receiveLookup =>
    simp only [Edge.stepGet] at hstep
    split at hstep
    · cases hstep
      refine hsame fun value hv => ?_
      rw [value?_afterLookup] at hv
      cases hv
    · cases hstep
      exact hsame fun _ hv => .inl hv
  | finishBlock =>
    simp only [Edge.stepGet] at hstep
    split at hstep
    · split at hstep
      · next s₁ htake =>
        cases hstep
        obtain ⟨messages, rfl⟩ := takeFinishBlock_eq htake
        refine ⟨h.keeps_refl.congr rfl rfl rfl rfl, ?_, rfl⟩
        exact hok.setPhase fun value hv => by cases hv
      · cases hstep
        exact hsame fun value hv => by cases hv
    · cases hstep
      exact hsame fun _ hv => .inl hv
  | redirect =>
    simp only [Edge.stepGet] at hstep
    split at hstep
    · cases hstep
      exact hsame fun value hv => .inr (h.value_redirected hv)
    · cases hstep
      exact hsame fun _ hv => .inl hv
  | receiveRedirect =>
    simp only [Edge.stepGet] at hstep
    split at hstep
    · next answer hphase =>
      cases hstep
      refine hsame fun value hv => .inl ?_
      rw [value?_afterRedirect] at hv
      rw [hphase]
      exact hv
    · cases hstep
      exact hsame fun _ hv => .inl hv
  | fetchFromCloud =>
    simp only [Edge.stepGet] at hstep
    split at hstep
    · cases hstep
      refine hsame fun value hv => .inr ?_
      cases hv
      rfl
    · cases hstep
      exact hsame fun _ hv => .inl hv
  | updateInvalid isSuccessful =>
    simp only [Edge.stepGet] at hstep
    split at hstep
    · next value hphase =>
      cases hstep
      refine ⟨?_, ?_, rfl⟩
      · apply h.keeps_setCache
        intro key v hv
        rw [CacheWrapper.get_updateIfInvalidForGetrsp] at hv
        split at hv
        · next hcond =>
          obtain ⟨rfl, hcopy⟩ := hcond
          cases hv
          refine .inr (hmeets (g.edge, g.key, value) ?_)
          simp only [GetAction.validates, hphase, if_pos hcopy, mem_def]
        · exact .inl hv
      · have hfinished : GetOk s { g with phase := .finished value } := by
          refine hok.setPhase fun v hv => .inl ?_
          rw [hphase]
          exact hv
        exact hfinished
    · cases hstep
      exact hsame fun _ hv => .inl hv

/-! ## Actions of a write -/

variable {w : LocalWrite}

/-- The decision of the beacon: a lock that is granted invalidates every listed edge, and no lock is
needed if no edge is listed. -/
theorem Coherent.acquired (h : Coherent beaconOf s) {retry : WritePhase}
    (hretry : ∀ edge, retry.MayKeep edge) {source : Nat} {wrapper : CooperationWrapper}
    {cas : BlockTracker → Option (BlockTracker × Bool)} {reply : CooperationWrapper.AcquireReply}
    (hacquire : (s.beacons (beaconOf w.key)).acquireLocalWritelock w.key source cas =
      some (wrapper, reply)) (edge : Nat) (value : Versioned)
    (hvalue : (s.caches edge).get w.key = some value) :
    (afterAcquire retry reply).MayKeep edge := by
  have hlisted := h.copies.listed edge w.key value hvalue
  unfold afterAcquire
  split
  · next hresult =>
    have hmem := mem_allDirinfo_of_listed hacquire hresult hlisted
    exact mem_map.2 ⟨⟨edge⟩, hmem, rfl⟩
  · next hresult =>
    exact not_listed_of_kNoneed (h.copies.beacon _) hacquire hresult hlisted
  · exact hretry edge

theorem value?_afterAcquire {retry : WritePhase} (hretry : retry.value? = none)
    (reply : CooperationWrapper.AcquireReply) : (afterAcquire retry reply).value? = none := by
  unfold afterAcquire
  split
  · rfl
  · rfl
  · exact hretry

variable {phase : WritePhase}

/-- An acquisition keeps the invariant. -/
theorem Coherent.acquireWritelock (h : Coherent beaconOf s)
    (hstep : acquireWritelock beaconOf s w = some (s', phase)) :
    Keeps beaconOf s s' ∧ WriteOk s' { w with phase := phase } ∧ s'.gets = s.gets := by
  have hbeacon := h.copies.beacon (beaconOf w.key)
  -- the two entry points differ in how they wait for a lock that is taken
  have hdecided : ∀ {cas : BlockTracker → Option (BlockTracker × Bool)}
      {wrapper : CooperationWrapper} {reply : CooperationWrapper.AcquireReply} {retry : WritePhase},
      (s.beacons (beaconOf w.key)).acquireLocalWritelock w.key w.edge cas =
        some (wrapper, reply) → wrapper.Invariant → (∀ edge, retry.MayKeep edge) →
      retry.value? = none →
      Keeps beaconOf s (s.setBeacon (beaconOf w.key) wrapper) ∧
        WriteOk (s.setBeacon (beaconOf w.key) wrapper)
          { w with phase := afterAcquire retry reply } ∧
        (s.setBeacon (beaconOf w.key) wrapper).gets = s.gets := by
    intro cas wrapper reply retry hacquire hinv hretry hvalue
    refine ⟨?_, ⟨h.acquired hretry hacquire, ?_⟩, rfl⟩
    · apply h.keeps_setBeacon hinv
      intro edge key value _ _ hlisted
      exact (listed_acquire hbeacon hacquire).2 hlisted
    · intro value hv
      rw [value?_afterAcquire hvalue] at hv
      cases hv
  simp only [Edge.acquireWritelock, bind_eq_bind] at hstep
  split at hstep
  · obtain ⟨⟨wrapper, reply⟩, hacquire, hstep⟩ := bind_eq_some_iff.1 hstep
    cases hstep
    have hop : CooperationWrapper.step (s.beacons (beaconOf w.key))
        (.acquireByCacheServer w.key w.edge) = some (wrapper, .acquire reply) := by
      simp only [CooperationWrapper.step, hacquire, map_some]
    exact hdecided hacquire (invariant_step hbeacon hop) (fun _ => trivial) rfl
  · obtain ⟨⟨wrapper, reply⟩, hacquire, hstep⟩ := bind_eq_some_iff.1 hstep
    cases hstep
    have hop : CooperationWrapper.step (s.beacons (beaconOf w.key))
        (.acquireByBeaconServer w.key w.edge w.addr) = some (wrapper, .acquire reply) := by
      simp only [CooperationWrapper.step, hacquire, map_some]
    exact hdecided hacquire (invariant_step hbeacon hop) (fun _ => trivial) rfl

theorem Coherent.releaseWritelock (h : Coherent beaconOf s)
    (hstep : releaseWritelock beaconOf s w value = some (s', phase)) :
    Keeps beaconOf s s' ∧ phase = .finished value ∧ s'.cloud = s.cloud ∧ s'.gets = s.gets := by
  have hbeacon := h.copies.beacon (beaconOf w.key)
  simp only [Edge.releaseWritelock, bind_eq_bind] at hstep
  obtain ⟨⟨wrapper, reply⟩, hrelease, hstep⟩ := bind_eq_some_iff.1 hstep
  cases hstep
  have hkeeps : Keeps beaconOf s (s.setBeacon (beaconOf w.key) wrapper) := by
    apply h.keeps_setBeacon (invariant_release hbeacon hrelease)
    intro edge key v _ _ hlisted
    exact (listed_release hbeacon hrelease).2 hlisted
  exact ⟨hkeeps.congr rfl rfl rfl rfl, rfl, rfl, rfl⟩

/-- A phase that restricts no copies and has a value that is not newer than the cloud's. -/
theorem WriteOk.of_value (hkeep : ∀ edge, phase.MayKeep edge)
    (hvalue : ∀ value ∈ phase.value?, value.version ≤ (s.cloud w.key).version) :
    WriteOk s { w with phase := phase } :=
  ⟨fun edge _ _ => hkeep edge, hvalue⟩

section Writes

variable (h : Coherent beaconOf s)
include h

/-- One invalidation of a write: the copy of the edge is not valid any more. -/
theorem Coherent.invalidate (hw : w ∈ s.writes) {remaining : List Nat}
    (hphase : w.phase = .invalidating remaining) (edge : Nat) :
    Keeps beaconOf s (s.setCache edge
        ((s.caches edge).invalidateKeyForLocalCachedObject w.key)) ∧
      WriteOk (s.setCache edge ((s.caches edge).invalidateKeyForLocalCachedObject w.key))
        { w with phase := .invalidating (remaining.erase edge) } := by
  constructor
  · apply h.keeps_setCache
    intro key value hvalue
    rw [CacheWrapper.get_invalidate] at hvalue
    split at hvalue
    · cases hvalue
    · exact .inl hvalue
  · refine ⟨fun e value hvalue => ?_, fun value hv => by cases hv⟩
    change ((update s.caches edge _) e).get w.key = some value at hvalue
    rw [update_apply] at hvalue
    split at hvalue
    · rw [CacheWrapper.get_invalidate, if_pos rfl] at hvalue
      cases hvalue
    · next he =>
      have hmem := (h.writes w hw).invalidated e value hvalue
      rw [hphase] at hmem
      exact (mem_erase_of_ne he).2 hmem

/-- The cloud applies a write whose lock is decided and whose invalidations are done. -/
theorem Coherent.writeToCloud (hw : w ∈ s.writes) {lockResult : LockResult}
    (hphase : w.phase = .acquired lockResult) :
    Keeps beaconOf s (writeToCloud s w lockResult).1 ∧
      WriteOk (writeToCloud s w lockResult).1
        { w with phase := (writeToCloud s w lockResult).2 } := by
  constructor
  · apply h.keeps_writeToCloud
    · intro edge
      cases hget : (s.caches edge).get w.key with
      | none => rfl
      | some value =>
        have hkeep := (h.writes w hw).invalidated edge value hget
        rw [hphase] at hkeep
        exact hkeep.elim
    · exact Nat.le_succ _
  · refine WriteOk.of_value (fun _ => trivial) fun value hv => ?_
    cases hv
    show _ ≤ ((update s.cloud w.key _) w.key).version
    rw [update_self]

/-- An action of a write that meets the condition. -/
theorem Coherent.stepWrite (hw : w ∈ s.writes) {action : WriteAction}
    (hmeets : ∀ copy ∈ action.validates s w, Undisturbed beaconOf s copy.1 copy.2.1 copy.2.2)
    (hstep : stepWrite beaconOf s w action = some (s', phase)) :
    Keeps beaconOf s s' ∧ WriteOk s' { w with phase := phase } ∧ s'.gets = s.gets := by
  have hok := h.writes w hw
  -- an action that is not enabled
  have hsame : ∀ {p : WritePhase}, w.phase = p →
      Keeps beaconOf s s ∧ WriteOk s { w with phase := p } ∧ s.gets = s.gets := by
    rintro p rfl
    exact ⟨h.keeps_refl, hok, rfl⟩
  cases action with
  | acquire =>
    simp only [Edge.stepWrite] at hstep
    split at hstep
    · exact h.acquireWritelock hstep
    · cases hstep
      exact hsame rfl
  | finishBlock =>
    simp only [Edge.stepWrite] at hstep
    split at hstep
    · next hphase =>
      split at hstep
      · next s₁ htake =>
        cases hstep
        obtain ⟨messages, rfl⟩ := takeFinishBlock_eq htake
        refine ⟨h.keeps_refl.congr rfl rfl rfl rfl, ?_, rfl⟩
        exact WriteOk.of_value (fun _ => trivial) fun value hv => by cases hv
      · cases hstep
        exact hsame hphase
    · cases hstep
      exact hsame rfl
  | invalidate edge =>
    simp only [Edge.stepWrite] at hstep
    split at hstep
    · next remaining hphase =>
      split at hstep
      · cases hstep
        obtain ⟨hkeeps, hwrite⟩ := h.invalidate hw hphase edge
        exact ⟨hkeeps, hwrite, rfl⟩
      · cases hstep
        exact hsame hphase
    · cases hstep
      exact hsame rfl
  | finishInvalidation =>
    simp only [Edge.stepWrite] at hstep
    split at hstep
    · next hphase =>
      cases hstep
      refine ⟨h.keeps_refl, ⟨fun edge value hvalue => ?_, fun value hv => by cases hv⟩, rfl⟩
      -- a valid copy would be one of no remaining edges
      have hmem := hok.invalidated edge value hvalue
      rw [hphase] at hmem
      exact not_mem_nil hmem
    · cases hstep
      exact hsame rfl
  | writeToCloud =>
    simp only [Edge.stepWrite] at hstep
    split at hstep
    · next lockResult hphase =>
      cases hstep
      obtain ⟨hkeeps, hwrite⟩ := h.writeToCloud hw hphase
      exact ⟨hkeeps, hwrite, rfl⟩
    · cases hstep
      exact hsame rfl
  | updateLocal isSuccessful =>
    simp only [Edge.stepWrite] at hstep
    split at hstep
    · next value lockResult hphase =>
      cases hstep
      refine ⟨?_, WriteOk.of_value (fun _ => trivial) fun v hv => ?_, rfl⟩
      · apply h.keeps_setCache
        intro key v hv
        rw [CacheWrapper.get_update] at hv
        split at hv
        · next hcond =>
          obtain ⟨rfl, hcached⟩ := hcond
          split at hv
          · next hsuccess =>
            cases hv
            refine .inr (hmeets (w.edge, w.key, value) ?_)
            simp only [WriteAction.validates, hphase, if_pos (And.intro hcached hsuccess),
              mem_def]
          · cases hv
        · exact .inl hv
      · apply hok.applied v
        rw [hphase]
        exact hv
    · cases hstep
      exact hsame rfl
  | release =>
    simp only [Edge.stepWrite] at hstep
    -- with or without a lock the write keeps its value
    have hfinished : ∀ {value : Versioned} {lockResult : LockResult},
        w.phase = .updated value lockResult →
        ∀ v ∈ (WritePhase.finished value).value?, v.version ≤ (s.cloud w.key).version := by
      intro value lockResult hphase v hv
      apply hok.applied v
      rw [hphase]
      exact hv
    split at hstep
    · next value hphase =>
      obtain ⟨hkeeps, rfl, hcloud, hgets⟩ := h.releaseWritelock hstep
      refine ⟨hkeeps, WriteOk.of_value (fun _ => trivial) ?_, hgets⟩
      rw [hcloud]
      exact hfinished hphase
    · next value lockResult _ hphase =>
      cases hstep
      exact ⟨h.keeps_refl, WriteOk.of_value (fun _ => trivial) (hfinished hphase), rfl⟩
    · cases hstep
      exact hsame rfl

/-! ## Placement -/

/-- The admission of a directory info forgets no edge. -/
theorem Coherent.admitDirectory {p : Placement} (hstep : admitDirectory beaconOf s p = some s') :
    Keeps beaconOf s s' ∧ s'.gets = s.gets ∧ s'.writes = s.writes := by
  have hbeacon := h.copies.beacon (beaconOf p.key)
  simp only [Edge.admitDirectory, bind_eq_bind] at hstep
  obtain ⟨⟨wrapper, reply⟩, hupdate, hstep⟩ := bind_eq_some_iff.1 hstep
  cases hstep
  have hkeeps : Keeps beaconOf s (s.setBeacon (beaconOf p.key) wrapper) := by
    apply h.keeps_setBeacon (invariant_updateDirectoryTable hbeacon hupdate)
    intro edge key value _ _ hlisted
    exact (listed_admission hbeacon hupdate).2 (.inr hlisted)
  exact ⟨hkeeps.congr rfl rfl rfl rfl, rfl, rfl⟩

/-- An edge without a valid copy leaves the directory. -/
theorem Coherent.evictDirectory {edge : Nat} (hmeets : (s.caches edge).get key = none)
    (hstep : evictDirectory beaconOf s edge key = some s') :
    Keeps beaconOf s s' ∧ s'.gets = s.gets ∧ s'.writes = s.writes := by
  have hbeacon := h.copies.beacon (beaconOf key)
  simp only [Edge.evictDirectory, bind_eq_bind] at hstep
  obtain ⟨⟨wrapper, reply⟩, hupdate, hstep⟩ := bind_eq_some_iff.1 hstep
  cases hstep
  refine ⟨?_, rfl, rfl⟩
  apply h.keeps_setBeacon (invariant_updateDirectoryTable hbeacon hupdate)
  intro e k value _ hvalue hlisted
  refine (listed_eviction hbeacon hupdate).2 ⟨?_, hlisted⟩
  rintro ⟨rfl, hsame⟩
  cases hsame
  rw [hmeets] at hvalue
  cases hvalue

/-- An admission into the cache of an edge makes an undisturbed copy valid, or none. -/
theorem Coherent.admitLocalEdgeCache {p : Placement} {isSuccessful : Bool}
    (hmeets : p.isValid = true ∧ isSuccessful = true →
      Undisturbed beaconOf s p.edge p.key ((s.caches p.edge).admittedValue p.key p.value)) :
    Keeps beaconOf s (admitLocalEdgeCache s p isSuccessful) := by
  apply h.keeps_setCache
  intro key value hvalue
  rw [CacheWrapper.get_admitObject] at hvalue
  split at hvalue
  · next hcond =>
    obtain ⟨rfl, hsuccess⟩ := hcond
    split at hvalue
    · next hvalid =>
      cases hvalue
      exact .inr (hmeets ⟨hvalid, hsuccess⟩)
    · cases hvalue
  · exact .inl hvalue

theorem Coherent.evictLocalEdgeCache (edge : Nat) (key : Key) :
    Keeps beaconOf s (evictLocalEdgeCache s edge key) := by
  have hkeeps : Keeps beaconOf s (s.setCache edge ((s.caches edge).evict key)) := by
    apply h.keeps_setCache
    intro k value hvalue
    rw [CacheWrapper.get_evict] at hvalue
    split at hvalue
    · cases hvalue
    · exact .inl hvalue
  exact hkeeps.congr rfl rfl rfl rfl

/-! ## Requests -/

/-- A get starts with no value or with the one of a valid copy. -/
theorem Coherent.getOk_start (edge : Nat) (addr : NetworkAddr)
    (key : Key) : GetOk s ⟨edge, addr, key, s.responded key, firstPhase s edge key⟩ := by
  intro version hversion
  have hle := h.copies.responded key version hversion
  refine ⟨hle, fun value hv => ?_⟩
  simp only [firstPhase] at hv
  split at hv
  · next v hget =>
    cases hv
    rw [h.copies.current edge key _ hget]
    exact hle
  · cases hv

end Writes

variable {index : Nat}

theorem fetchedValue_eq_some (h : fetchedValue s index = some (g, value)) :
    g ∈ s.gets ∧ g.phase = .finished value := by
  unfold fetchedValue at h
  split at h
  · next g' hg =>
    split at h
    · next v hphase =>
      cases h
      exact ⟨mem_of_getElem? hg, hphase⟩
    · cases h
  · cases h

theorem writtenValue_eq_some (h : writtenValue s index = some (w, value)) :
    w ∈ s.writes ∧ w.phase = .finished value := by
  unfold writtenValue at h
  split at h
  · next w' hw =>
    split at h
    · next v hphase =>
      cases h
      exact ⟨mem_of_getElem? hw, hphase⟩
    · cases h
  · cases h

/-- A write is answered after the cloud has applied it. -/
theorem Coherent.respondWrite (h : Coherent beaconOf s)
    (hvalue : writtenValue s index = some (w, value)) :
    Keeps beaconOf s { s with
      responded := update s.responded w.key (value.version :: s.responded w.key) } := by
  obtain ⟨hw, hphase⟩ := writtenValue_eq_some hvalue
  have happlied : value.version ≤ (s.cloud w.key).version := by
    apply (h.writes w hw).applied value
    rw [hphase]
    rfl
  refine ⟨⟨h.copies.beacon, h.copies.current, h.copies.listed, ?_⟩, fun _ => le_refl _,
    fun _ _ hok => ⟨hok.invalidated, hok.applied⟩⟩
  intro key version hversion
  change version ∈ (update s.responded w.key _) key at hversion
  rw [update_apply] at hversion
  split at hversion
  · next hk =>
    subst hk
    rcases mem_cons.1 hversion with rfl | hold
    · exact happlied
    · exact h.copies.responded _ version hold
  · exact h.copies.responded key version hversion

/-! ## Steps and runs -/

/-- The invariant after a step that leaves the requests as they are. -/
theorem Coherent.of_requests (h : Coherent beaconOf s) (hkeeps : Keeps beaconOf s s')
    (hgets : s'.gets = s.gets) (hwrites : s'.writes = s.writes) : Coherent beaconOf s' := by
  apply h.of_keeps hkeeps
  · rw [hgets]
    exact fun g hg => .inl hg
  · rw [hwrites]
    exact fun w hw => .inl hw

variable {out : Response}

/-- The invariant after an action of a get. -/
theorem Coherent.step_get (h : Coherent beaconOf s) {action : GetAction}
    (hmeets : Meets beaconOf s (.get index action))
    (hstep : step beaconOf s (.get index action) = some (s', out)) : Coherent beaconOf s' := by
  simp only [Edge.step] at hstep
  split at hstep
  · cases hstep
    exact h
  · next g hget =>
    obtain ⟨⟨s₁, phase⟩, haction, hstep⟩ := bind_eq_some_iff.1 hstep
    cases hstep
    have hcopy : ∀ copy ∈ action.validates s g,
        Undisturbed beaconOf s copy.1 copy.2.1 copy.2.2 := by
      intro copy hvalidates
      apply hmeets.1 copy
      rw [Action.validates, hget]
      exact hvalidates
    obtain ⟨hkeeps, hok, hwrites⟩ := h.stepGet (mem_of_getElem? hget) hcopy haction
    refine h.of_keeps (hkeeps.congr rfl rfl rfl rfl) ?_ ?_
    · intro g' hg'
      rcases mem_or_eq_of_mem_set hg' with hold | rfl
      · exact .inl hold
      · exact .inr hok
    · intro w hw
      change w ∈ s₁.writes at hw
      rw [hwrites] at hw
      exact .inl hw

/-- The invariant after an action of a write. -/
theorem Coherent.step_write (h : Coherent beaconOf s) {action : WriteAction}
    (hmeets : Meets beaconOf s (.write index action))
    (hstep : step beaconOf s (.write index action) = some (s', out)) : Coherent beaconOf s' := by
  simp only [Edge.step] at hstep
  split at hstep
  · cases hstep
    exact h
  · next w hwrite =>
    obtain ⟨⟨s₁, phase⟩, haction, hstep⟩ := bind_eq_some_iff.1 hstep
    cases hstep
    have hcopy : ∀ copy ∈ action.validates s w,
        Undisturbed beaconOf s copy.1 copy.2.1 copy.2.2 := by
      intro copy hvalidates
      apply hmeets.1 copy
      rw [Action.validates, hwrite]
      exact hvalidates
    obtain ⟨hkeeps, hok, hgets⟩ := h.stepWrite (mem_of_getElem? hwrite) hcopy haction
    refine h.of_keeps (hkeeps.congr rfl rfl rfl rfl) ?_ ?_
    · intro g hg
      change g ∈ s₁.gets at hg
      rw [hgets] at hg
      exact .inl hg
    · intro w' hw'
      rcases mem_or_eq_of_mem_set hw' with hold | rfl
      · exact .inl hold
      · exact .inr ⟨hok.invalidated, hok.applied⟩

/-- A step that only adds messages. -/
theorem Coherent.of_messages (h : Coherent beaconOf s) (hcloud : s'.cloud = s.cloud)
    (hcaches : s'.caches = s.caches) (hbeacons : s'.beacons = s.beacons)
    (hresponded : s'.responded = s.responded) (hgets : s'.gets = s.gets)
    (hwrites : s'.writes = s.writes) : Coherent beaconOf s' :=
  h.of_requests (h.keeps_refl.congr hcloud hcaches hbeacons hresponded) hgets hwrites

/-- Every step that meets the condition keeps the invariant. -/
theorem Coherent.step {a : Action} (h : Coherent beaconOf s)
    (hmeets : Meets beaconOf s a) (hstep : step beaconOf s a = some (s', out)) :
    Coherent beaconOf s' := by
  cases a with
  | startGet edge addr key =>
    cases hstep
    refine h.of_keeps (h.keeps_refl.congr rfl rfl rfl rfl) ?_ ?_
    · intro g hg
      rcases mem_append.1 hg with hold | hnew
      · exact .inl hold
      · obtain rfl := mem_singleton.1 hnew
        exact .inr (h.getOk_start edge addr key)
    · exact fun w hw => .inl hw
  | get index action => exact h.step_get hmeets hstep
  | respondGet index =>
    simp only [Edge.step] at hstep
    split at hstep
    · cases hstep
      exact h
    · cases hstep
      refine h.of_keeps (h.keeps_refl.congr rfl rfl rfl rfl) ?_ ?_
      · exact fun g hg => .inl (mem_of_mem_eraseIdx hg)
      · exact fun w hw => .inl hw
  | startWrite edge addr key value =>
    cases hstep
    refine h.of_keeps (h.keeps_refl.congr rfl rfl rfl rfl) ?_ ?_
    · exact fun g hg => .inl hg
    · intro w hw
      rcases mem_append.1 hw with hold | hnew
      · exact .inl hold
      · obtain rfl := mem_singleton.1 hnew
        exact .inr ⟨fun _ _ _ => trivial, fun v hv => by cases hv⟩
  | write index action => exact h.step_write hmeets hstep
  | respondWrite index =>
    simp only [Edge.step] at hstep
    split at hstep
    · cases hstep
      exact h
    · next w value hvalue =>
      cases hstep
      refine h.of_keeps ((h.respondWrite hvalue).congr rfl rfl rfl rfl) ?_ ?_
      · exact fun g hg => .inl hg
      · exact fun w' hw' => .inl (mem_of_mem_eraseIdx hw')
  | admitFetched _ | admitWritten _ | sendFetched _ | sendWritten _ | fetchForPlacement _ _
  | fetchFromCloudForPlacement _ | notifyForPlacement _ _ | resendAdmission _ =>
    have hsame := sameButSent_of_step rfl hstep
    exact h.of_messages hsame.cloud hsame.caches hsame.beacons hsame.responded hsame.gets
      hsame.writes
  | admitDirectory index =>
    simp only [Edge.step] at hstep
    split at hstep
    · cases hstep
      exact h
    · obtain ⟨s₁, hadmitted, hstep⟩ := bind_eq_some_iff.1 hstep
      cases hstep
      obtain ⟨hkeeps, hgets, hwrites⟩ := h.admitDirectory hadmitted
      exact h.of_requests (hkeeps.congr rfl rfl rfl rfl) hgets hwrites
  | admitLocal index isSuccessful =>
    simp only [Edge.step] at hstep
    split at hstep
    · cases hstep
      exact h
    · next p hp =>
      split at hstep <;> cases hstep
      · -- the answer is stale
        exact h.of_messages rfl rfl rfl rfl rfl rfl
      · next hfresh =>
        have hcopy : p.isValid = true ∧ isSuccessful = true →
            Undisturbed beaconOf s p.edge p.key
              ((s.caches p.edge).admittedValue p.key p.value) := by
          intro hvalid
          apply hmeets.1 (p.edge, p.key, (s.caches p.edge).admittedValue p.key p.value)
          simp only [Action.validates, hp, bind_some, if_pos (And.intro hfresh hvalid), mem_def]
        have hkeeps := h.admitLocalEdgeCache hcopy
        exact h.of_requests (hkeeps.congr rfl rfl rfl rfl) rfl rfl
  | resendEviction index =>
    cases hstep
    exact h.of_messages rfl rfl rfl rfl rfl rfl
  | evictLocal edge key =>
    simp only [Edge.step] at hstep
    split at hstep <;> cases hstep
    · exact h.of_requests (h.evictLocalEdgeCache edge key) rfl rfl
    · exact h
  | evictDirectory index =>
    simp only [Edge.step] at hstep
    split at hstep
    · cases hstep
      exact h
    · next edge key hevicted =>
      obtain ⟨s₁, hevict, hstep⟩ := bind_eq_some_iff.1 hstep
      cases hstep
      have hnone := hmeets.2 (edge, key) hevicted
      obtain ⟨hkeeps, hgets, hwrites⟩ := h.evictDirectory hnone hevict
      exact h.of_requests (hkeeps.congr rfl rfl rfl rfl) hgets hwrites

theorem coherent_initial (beaconOf : Key → Nat) : Coherent beaconOf initial where
  copies :=
    { beacon := fun _ => invariant_initial
      current := fun edge key value hvalue => by cases hvalue
      listed := fun edge key value hvalue => by cases hvalue
      responded := fun key version hversion => by cases hversion }
  gets := fun g hg => by cases hg
  writes := fun w hw => by cases hw

/-- A get that is answered returns the value that it has fetched. -/
theorem Coherent.le_of_response (h : Coherent beaconOf s) {a : Action} {respondedBefore : List Nat}
    (hstep : Edge.step beaconOf s a = some (s', .localGetResponse key respondedBefore value))
    (version : Nat) (hversion : version ∈ respondedBefore) : version ≤ value.version := by
  have hrespond : ∃ index g, fetchedValue s index = some (g, value) ∧
      g.respondedBefore = respondedBefore := by
    cases a with
    | respondGet index =>
      simp only [Edge.step] at hstep
      split at hstep
      · cases hstep
      · next g v hfetched =>
        cases hstep
        exact ⟨index, g, hfetched, rfl⟩
    | get index action =>
      simp only [Edge.step] at hstep
      split at hstep
      · cases hstep
      · obtain ⟨_, _, hstep⟩ := bind_eq_some_iff.1 hstep
        cases hstep
    | write index action =>
      simp only [Edge.step] at hstep
      split at hstep
      · cases hstep
      · obtain ⟨_, _, hstep⟩ := bind_eq_some_iff.1 hstep
        cases hstep
    | admitDirectory index =>
      simp only [Edge.step] at hstep
      split at hstep
      · cases hstep
      · obtain ⟨_, _, hstep⟩ := bind_eq_some_iff.1 hstep
        cases hstep
    | evictDirectory index =>
      simp only [Edge.step] at hstep
      split at hstep
      · cases hstep
      · obtain ⟨_, _, hstep⟩ := bind_eq_some_iff.1 hstep
        cases hstep
    | startGet edge addr key => cases hstep
    | startWrite edge addr key value => cases hstep
    | fetchFromCloudForPlacement key => cases hstep
    | resendAdmission index => cases hstep
    | resendEviction index => cases hstep
    | admitLocal index isSuccessful =>
      simp only [Edge.step] at hstep
      split at hstep
      · cases hstep
      · split at hstep <;> cases hstep
    | _ =>
      simp only [Edge.step] at hstep
      split at hstep <;> cases hstep
  obtain ⟨index, g, hfetched, rfl⟩ := hrespond
  obtain ⟨hg, hphase⟩ := fetchedValue_eq_some hfetched
  apply (h.gets g hg version hversion).2 value
  rw [hphase]
  rfl

end Invariant

/-- In every run whose steps all meet the condition, a get that is answered returns a value that is
not older than any write of the key answered before the get started. -/
theorem no_stale_read (beaconOf : Key → Nat) {tr : List (Action × Response)} {s : State}
    (hrun : Runs (step beaconOf) (Meets beaconOf) initial tr s) :
    ∀ a key respondedBefore value, (a, Response.localGetResponse key respondedBefore value) ∈ tr →
      ∀ version ∈ respondedBefore, version ≤ value.version := by
  have hinv : Coherent beaconOf s ∧ ∀ a key respondedBefore value,
      (a, Response.localGetResponse key respondedBefore value) ∈ tr →
        ∀ version ∈ respondedBefore, version ≤ value.version := by
    apply hrun.trace_invariant (P := fun tr s => Coherent beaconOf s ∧
      ∀ a key respondedBefore value,
        (a, Response.localGetResponse key respondedBefore value) ∈ tr →
          ∀ version ∈ respondedBefore, version ≤ value.version)
    · exact ⟨coherent_initial beaconOf, fun _ _ _ _ hmem => by cases hmem⟩
    · rintro tr s a s' out ⟨hcoherent, hearlier⟩ hmeets hstep
      refine ⟨hcoherent.step hmeets hstep, fun a' key respondedBefore value hmem => ?_⟩
      rcases List.mem_cons.1 hmem with hlast | hold
      · cases hlast
        exact hcoherent.le_of_response hstep
      · exact hearlier a' key respondedBefore value hold
  exact hinv.2

/-! ## Concrete runs -/

/-- Edge `0` is the beacon of every key. -/
def oneBeacon : Key → Nat := fun _ => 0

/-- A value of seven bytes. -/
def sevenBytes : Value := .ofSize 7

/-- A get at edge `1` reads the cloud. -/
def fetch : List Action :=
  [.startGet 1 ⟨[], 1⟩ ⟨[7]⟩, .get 0 (.lookup 0), .get 0 .receiveLookup, .get 0 .fetchFromCloud,
    .get 0 (.updateInvalid true)]

/-- The value of the get is admitted at edge `1`, and the get is answered. -/
def admitAndRespond : List Action :=
  [.admitFetched 0, .admitDirectory 0, .admitLocal 0 true, .respondGet 0]

/-- A put at edge `2` of a key that is cached nowhere needs no lock. -/
def putWithoutLock : List Action :=
  [.startWrite 2 ⟨[], 2⟩ ⟨[7]⟩ sevenBytes, .write 0 .acquire, .write 0 .writeToCloud,
    .write 0 (.updateLocal true), .write 0 .release, .respondWrite 0]

/-- A put at edge `2` that acquires the lock and invalidates the copy of edge `1`. -/
def putWithLock : List Action :=
  [.startWrite 2 ⟨[], 2⟩ ⟨[7]⟩ sevenBytes, .write 0 .acquire, .write 0 (.invalidate 1),
    .write 0 .finishInvalidation, .write 0 .writeToCloud, .write 0 (.updateLocal true),
    .write 0 .release, .respondWrite 0]

/-- The first get in progress has the value of the given version, and it started after a write of
version `1` was answered. -/
def readsVersion (version : Nat) (s : State) : Bool :=
  match fetchedValue s 0 with
  | some (g, value) => decide (value.version = version ∧ 1 ∈ g.respondedBefore)
  | none => false

/-- The answer of such a get. -/
theorem step_of_readsVersion {version : Nat} {s : State} (h : readsVersion version s = true) :
    ∃ s' key respondedBefore value, step oneBeacon s (.respondGet 0) =
      some (s', .localGetResponse key respondedBefore value) ∧ value.version = version ∧
        1 ∈ respondedBefore := by
  unfold readsVersion at h
  split at h
  · next g value hfetched =>
    obtain ⟨hversion, hmem⟩ := of_decide_eq_true h
    refine ⟨{ s with gets := s.gets.eraseIdx 0 }, g.key, g.respondedBefore, value, ?_,
      hversion, hmem⟩
    rw [step, hfetched]
  · cases h

/-- The put is applied and answered between the read of the cloud and the admission of the value
that was read. The next get at edge `1` returns the old value. -/
theorem stale_read_after_write :
    ¬ ∀ (beaconOf : Key → Nat) tr s, Runs (step beaconOf) anyAction initial tr s →
      ∀ a key respondedBefore value,
        (a, Response.localGetResponse key respondedBefore value) ∈ tr →
          ∀ version ∈ respondedBefore, version ≤ value.version := by
  intro h
  have hexec : (exec (step oneBeacon) anyAction initial (fetch ++ putWithoutLock ++
      admitAndRespond ++ [.startGet 1 ⟨[], 1⟩ ⟨[7]⟩, .get 0 (.updateInvalid true)])).any
        (readsVersion 0) = true := by
    decide +kernel
  obtain ⟨tr, s, hrun, -, hread⟩ := exists_runs_of_any hexec
  obtain ⟨s', key, respondedBefore, value, hstep, hzero, hmem⟩ :=
    step_of_readsVersion hread
  have hle := h oneBeacon _ s' (.cons hrun trivial hstep) _ key respondedBefore value
    (List.mem_cons_self ..) 1 hmem
  omega

/-- The value is admitted before the put, which invalidates it. The next get at edge `1` repairs its
copy with the new value. -/
theorem no_stale_read_repaired :
    ∃ tr s key respondedBefore value, Runs (step oneBeacon) (Meets oneBeacon) initial
      ((.respondGet 0, .localGetResponse key respondedBefore value) :: tr) s ∧
        1 ∈ respondedBefore ∧ 1 ≤ value.version := by
  have hexec : (exec (step oneBeacon) (Meets oneBeacon) initial (fetch ++ admitAndRespond ++
      putWithLock ++ fetch)).any (readsVersion 1) = true := by
    decide +kernel
  obtain ⟨tr, s, hrun, -, hread⟩ := exists_runs_of_any hexec
  obtain ⟨s', key, respondedBefore, value, hstep, -, hmem⟩ :=
    step_of_readsVersion hread
  have hmeets : Meets oneBeacon s (.respondGet 0) := by
    constructor
    · intro copy hcopy
      cases hcopy
    · intro evicted hevicted
      cases hevicted
  have hrun' := Runs.cons hrun hmeets hstep
  exact ⟨tr, s', key, respondedBefore, value, hrun', hmem,
    no_stale_read oneBeacon hrun' _ key respondedBefore value (List.mem_cons_self ..) 1 hmem⟩

end Covered.Edge
