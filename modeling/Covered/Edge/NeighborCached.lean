import Covered.Cooperation.CooperationWrapper
import Covered.Lib.IndexedSum

/-!
# The flag for copies at other edges

The local cached metadata of an edge has a flag `is_neighbor_cached` for each cached key. The answer
of the beacon to a directory admission gives the flag its first value, when the object is admitted
into the local cache. Later the beacon notifies the one edge that has a copy when a second edge
gets one, and the one edge that keeps a copy when the others have left.

An answer and a notification carry no sequence number, and a notification for a key that is not
cached is dropped, so the flag depends on the order in which an edge takes them in.
`State.settled` is the flag that an edge ends up with when it takes in what it has not yet taken in
in the order of the directory updates. `Inv` says that this flag is right, and a step keeps it if it
does not overtake an older message with another outcome (`KeepsSettled`) and does not remove the
directory info of a copy that is still there or still to come.
`isNeighborCached_iff_neighborListed` is the result for every run; in `admission_overtaken` the
notification arrives before the local admission.

A directory update is processed once and answered once here: an edge that times out sends it again
and drops all answers but one, which is not modelled.
-/

set_option autoImplicit false

namespace Covered.Edge.NeighborCached

open Common Cooperation Lib.Execution Function Option List CooperationWrapper

/-! ## What an edge takes in -/

/-- The way of a message: the answer to a directory admission, a metadata update that the beacon
has still to process, and the metadata update request that it sends to another edge. -/
inductive PendingKind
  | directoryUpdateResponse
  | metadataUpdateRequirement
  | metadataUpdateRequest
deriving DecidableEq

/-- What a directory update of the key leaves for an edge to take in. -/
structure Pending where
  kind : PendingKind
  edge : Nat
  key : Key
  isNeighborCached : Bool
deriving DecidableEq

/-- The flag after a local admission: a key that is cached already keeps its metadata. -/
def admitLocalCache (flag : Option Bool) (isNeighborCached : Bool) : Option Bool :=
  match flag with
  | some old => some old
  | none => some isNeighborCached

/-- The flag after a metadata update, which has no effect on a key that is not cached. -/
def updateIsNeighborCached (flag : Option Bool) (isNeighborCached : Bool) : Option Bool :=
  match flag with
  | some _ => some isNeighborCached
  | none => none

/-- The flag of a key at an edge that takes the message in. -/
def Pending.takeIn (p : Pending) (flag : Option Bool) : Option Bool :=
  match p.kind with
  | .directoryUpdateResponse => admitLocalCache flag p.isNeighborCached
  | .metadataUpdateRequirement => updateIsNeighborCached flag p.isNeighborCached
  | .metadataUpdateRequest => updateIsNeighborCached flag p.isNeighborCached

/-- The effect of a message on the flag of the given edge and key. -/
def Pending.affect (edge : Nat) (key : Key) (flag : Option Bool) (p : Pending) : Option Bool :=
  if p.edge = edge ∧ p.key = key then p.takeIn flag else flag

/-- The metadata update that the beacon processes after a directory update, if any. -/
def processMetadataUpdateRequirement (key : Key) (requirement : MetadataUpdateRequirement) :
    List Pending :=
  if requirement.NeedUpdate then
    [{ kind := .metadataUpdateRequirement
       edge := requirement.notifyEdgeIdx
       key := key
       isNeighborCached := requirement.isFromSingleToMultiple }]
  else []

/-! ## Beacons, edges and messages -/

/-- A directory admission or eviction on its way from an edge to the beacon of the key. -/
structure DirectoryUpdateRequest where
  edge : Nat
  key : Key
  isAdmit : Bool
deriving DecidableEq

/-- The directories of the beacons, the flags of the cached keys of each edge, the directory updates
under way, and what the edges have not yet taken in, in the order of the directory updates. -/
structure State where
  beacons : Nat → CooperationWrapper := fun _ => {}
  isNeighborCached : Nat → Key → Option Bool := fun _ _ => none
  requests : List DirectoryUpdateRequest := []
  pending : List Pending := []

def initial : State := {}

namespace State

def setFlag (s : State) (edge : Nat) (key : Key) (flag : Option Bool) : State :=
  { s with isNeighborCached :=
      Function.update s.isNeighborCached edge (Function.update (s.isNeighborCached edge) key flag) }

/-- The message of a kind at a position. -/
def pendingOf (s : State) (kind : PendingKind) (index : Nat) : Option Pending :=
  s.pending[index]?.filter fun p => decide (p.kind = kind)

/-- An edge takes a message in. -/
def takeIn (s : State) (index : Nat) (p : Pending) : State :=
  { s.setFlag p.edge p.key (p.takeIn (s.isNeighborCached p.edge p.key)) with
    pending := s.pending.eraseIdx index }

/-- The beacon sends a metadata update request to the edge to notify. -/
def send (s : State) (index : Nat) (p : Pending) : State :=
  { s with pending := s.pending.set index { p with kind := .metadataUpdateRequest } }

/-- The edge evicts its copy of a cached key and asks the beacon to evict its directory info. -/
def evictLocalEdgeCache (s : State) (edge : Nat) (key : Key) : State :=
  match s.isNeighborCached edge key with
  | none => s
  | some _ =>
      { s.setFlag edge key none with
        requests := s.requests ++ [{ edge := edge, key := key, isAdmit := false }] }

/-- The flag of a key at an edge after all messages are taken in in the order of the directory
updates. -/
def settled (s : State) (edge : Nat) (key : Key) : Option Bool :=
  s.pending.foldl (Pending.affect edge key) (s.isNeighborCached edge key)

end State

/-- One atomic action of a party. -/
inductive Action
  | requestAdmission (edge : Nat) (key : Key)
  | evictLocal (edge : Nat) (key : Key)
  | updateDirectory (index : Nat)
  | processMetadataUpdateRequirement (index : Nat)
  | processMetadataUpdateRequest (index : Nat)
  | admitLocal (index : Nat)
  | beaconOperation (beacon : Nat) (op : CooperationWrapper.Operation)
deriving DecidableEq

section Handlers

variable (beaconOf : Key → Nat)

/-- The beacon of the key updates its directory, processes the metadata update requirement and
answers an admission. -/
def updateDirectory (s : State) (r : DirectoryUpdateRequest) : Option State := do
  let (w, reply) ←
    (s.beacons (beaconOf r.key)).updateDirectoryTable r.key r.edge r.isAdmit ⟨r.edge⟩
  let answer : List Pending :=
    if r.isAdmit then
      [{ kind := .directoryUpdateResponse
         edge := r.edge
         key := r.key
         isNeighborCached := reply.isNeighborCached }]
    else []
  return { s with
    beacons := Function.update s.beacons (beaconOf r.key) w
    pending := s.pending ++ processMetadataUpdateRequirement r.key reply.requirement ++ answer }

/-- Lookups and write locks, which leave the directory infos where they are. -/
def beaconOperation (s : State) (beacon : Nat) : CooperationWrapper.Operation → Option State
  | .updateDirectory _ _ _ _ => some s
  | op => do
      let (w, _) ← (s.beacons beacon).step op
      return { s with beacons := Function.update s.beacons beacon w }

/-- One action; an action that is not enabled changes nothing. -/
def step (s : State) : Action → Option (State × Unit)
  | .requestAdmission edge key =>
      some ({ s with
        requests := s.requests ++ [{ edge := edge, key := key, isAdmit := true }] }, ())
  | .evictLocal edge key => some (s.evictLocalEdgeCache edge key, ())
  | .updateDirectory index =>
      match s.requests[index]? with
      | none => some (s, ())
      | some r =>
          (updateDirectory beaconOf { s with requests := s.requests.eraseIdx index } r).map
            fun s' => (s', ())
  | .processMetadataUpdateRequirement index =>
      match s.pendingOf .metadataUpdateRequirement index with
      | none => some (s, ())
      | some p =>
          -- the beacon updates its own flag directly and sends a request to another edge
          if p.edge = beaconOf p.key then some (s.takeIn index p, ())
          else some (s.send index p, ())
  | .processMetadataUpdateRequest index =>
      match s.pendingOf .metadataUpdateRequest index with
      | none => some (s, ())
      | some p => some (s.takeIn index p, ())
  | .admitLocal index =>
      match s.pendingOf .directoryUpdateResponse index with
      | none => some (s, ())
      | some p => some (s.takeIn index p, ())
  | .beaconOperation beacon op => (beaconOperation s beacon op).map fun s' => (s', ())

/-! ## The condition -/

/-- The flag that the pending messages lead to stays as it was, or no copy is left or to come. -/
def KeepsSettled (s s' : State) (edge : Nat) (key : Key) : Prop :=
  s'.settled edge key = s.settled edge key ∨ s'.settled edge key = none

instance (s s' : State) (edge : Nat) (key : Key) : Decidable (KeepsSettled s s' edge key) :=
  inferInstanceAs (Decidable (_ ∨ _))

/-- The condition on a step: what an edge does to its copy overtakes no older message with another
outcome, and the directory info that is evicted stands for no copy that is left or to come. -/
def Meets (s : State) : Action → Prop
  | .requestAdmission _ _ => True
  | .evictLocal edge key => KeepsSettled s (s.evictLocalEdgeCache edge key) edge key
  | .updateDirectory index =>
      ∀ r ∈ s.requests[index]?, r.isAdmit = false → s.settled r.edge r.key = none
  | .processMetadataUpdateRequirement index =>
      ∀ p ∈ s.pendingOf .metadataUpdateRequirement index, p.edge = beaconOf p.key →
        KeepsSettled s (s.takeIn index p) p.edge p.key
  | .processMetadataUpdateRequest index =>
      ∀ p ∈ s.pendingOf .metadataUpdateRequest index,
        KeepsSettled s (s.takeIn index p) p.edge p.key
  | .admitLocal index =>
      ∀ p ∈ s.pendingOf .directoryUpdateResponse index,
        KeepsSettled s (s.takeIn index p) p.edge p.key
  | .beaconOperation _ _ => True

instance (s : State) : (a : Action) → Decidable (Meets beaconOf s a)
  | .requestAdmission _ _ => inferInstanceAs (Decidable True)
  | .evictLocal edge key =>
      inferInstanceAs (Decidable (KeepsSettled s (s.evictLocalEdgeCache edge key) edge key))
  | .updateDirectory index =>
      inferInstanceAs (Decidable (∀ r ∈ s.requests[index]?, _ → s.settled r.edge r.key = none))
  | .processMetadataUpdateRequirement index =>
      inferInstanceAs (Decidable (∀ p ∈ s.pendingOf .metadataUpdateRequirement index, _ → _))
  | .processMetadataUpdateRequest index =>
      inferInstanceAs (Decidable (∀ p ∈ s.pendingOf .metadataUpdateRequest index, _))
  | .admitLocal index =>
      inferInstanceAs (Decidable (∀ p ∈ s.pendingOf .directoryUpdateResponse index, _))
  | .beaconOperation _ _ => inferInstanceAs (Decidable True)

/-- The beacon of the key lists the edge. -/
def Listed (s : State) (edge : Nat) (key : Key) : Prop :=
  (s.beacons (beaconOf key)).Listed key edge

instance (s : State) (edge : Nat) (key : Key) : Decidable (Listed beaconOf s edge key) :=
  inferInstanceAs (Decidable ((s.beacons (beaconOf key)).Listed key edge))

/-- The beacon of the key lists another edge. -/
def NeighborListed (s : State) (edge : Nat) (key : Key) : Prop :=
  ∃ other, other ≠ edge ∧ Listed beaconOf s other key

/-- No directory update of the key is under way, and no edge has anything to take in. -/
def Quiescent (s : State) (key : Key) : Prop :=
  (∀ r ∈ s.requests, r.key ≠ key) ∧ ∀ p ∈ s.pending, p.key ≠ key

instance (s : State) (key : Key) : Decidable (Quiescent s key) :=
  inferInstanceAs (Decidable (_ ∧ _))

end Handlers

/-! ## The settled flag -/

section Settled

variable {s : State} {edge : Nat} {key : Key} {index : Nat}

theorem isNeighborCached_setFlag (e : Nat) (k : Key) (flag : Option Bool) :
    (s.setFlag e k flag).isNeighborCached edge key =
      if edge = e ∧ key = k then flag else s.isNeighborCached edge key := by
  simp only [State.setFlag, update_apply]
  by_cases he : edge = e
  · subst he
    simp only [true_and, if_true, update_apply]
  · simp only [he, false_and, if_false]

variable {p : Pending}

theorem pendingOf_spec {kind : PendingKind} (h : s.pendingOf kind index = some p) :
    s.pending[index]? = some p ∧ p.kind = kind := by
  rw [State.pendingOf, filter_eq_some_iff, decide_eq_true_eq] at h
  exact h

/-- Taking a message in leaves the other edges and keys alone. -/
theorem settled_takeIn_of_ne (hp : s.pending[index]? = some p)
    (hne : ¬ (p.edge = edge ∧ p.key = key)) :
    (s.takeIn index p).settled edge key = s.settled edge key := by
  have hflag : (s.takeIn index p).isNeighborCached edge key = s.isNeighborCached edge key := by
    apply (isNeighborCached_setFlag p.edge p.key _).trans
    rw [if_neg]
    rintro ⟨rfl, rfl⟩
    exact hne ⟨rfl, rfl⟩
  rw [State.settled, hflag]
  exact Lib.IndexedSum.foldl_eraseIdx_of_id (fun _ => if_neg hne) hp _

/-- Sending a metadata update request changes no outcome. -/
theorem settled_send (hp : s.pendingOf .metadataUpdateRequirement index = some p) :
    (s.send index p).settled edge key = s.settled edge key := by
  obtain ⟨hget, hkind⟩ := pendingOf_spec hp
  refine Lib.IndexedSum.foldl_set_of_eq (fun flag => ?_) hget _
  simp only [Pending.affect, Pending.takeIn, hkind]

/-- Messages to other edges or about other keys have no effect. -/
theorem foldl_affect_of_ne (l : List Pending)
    (hl : ∀ p ∈ l, ¬ (p.edge = edge ∧ p.key = key)) (flag : Option Bool) :
    l.foldl (Pending.affect edge key) flag = flag := by
  induction l with
  | nil => rfl
  | cons first rest ih =>
    rw [foldl_cons, Pending.affect, if_neg (hl first mem_cons_self)]
    exact ih fun p hp => hl p (mem_cons_of_mem _ hp)

/-- Who has taken everything in has the settled flag. -/
theorem settled_of_quiescent (hquiet : Quiescent s key) :
    s.settled edge key = s.isNeighborCached edge key := by
  apply foldl_affect_of_ne
  intro p hp hand
  exact hquiet.2 p hp hand.2

end Settled

/-! ## The invariant -/

section Invariant

/-- A flag that an edge has or will have stands for a listed edge, and says whether another edge is
listed. -/
def Right (w : CooperationWrapper) (key : Key) (edge : Nat) (flag : Option Bool) : Prop :=
  ∀ v, flag = some v → w.Listed key edge ∧ (v = true ↔ w.NeighborListed key edge)

theorem right_none {w : CooperationWrapper} {key : Key} {edge : Nat} : Right w key edge none :=
  fun _ h => by cases h

variable (beaconOf : Key → Nat)

/-- Every settled flag is right. -/
structure Inv (s : State) : Prop where
  beacon : ∀ beacon, (s.beacons beacon).Invariant
  right : ∀ edge key, Right (s.beacons (beaconOf key)) key edge (s.settled edge key)

theorem inv_initial : Inv beaconOf initial where
  beacon := fun _ => invariant_initial
  right := fun _ _ => right_none

variable {beaconOf} {s s' : State}

/-- A step at an edge that keeps the settled flags. -/
theorem Inv.of_keepsSettled (h : Inv beaconOf s) (hbeacons : s'.beacons = s.beacons)
    (hkeeps : ∀ edge key, KeepsSettled s s' edge key) : Inv beaconOf s' where
  beacon := by
    rw [hbeacons]
    exact h.beacon
  right := fun edge key => by
    rw [hbeacons]
    rcases hkeeps edge key with hsame | hnone
    · rw [hsame]
      exact h.right edge key
    · rw [hnone]
      exact right_none

/-- An edge takes in a message that overtakes nothing. -/
theorem Inv.takeIn (h : Inv beaconOf s) {kind : PendingKind} {index : Nat} {p : Pending}
    (hp : s.pendingOf kind index = some p)
    (hkeeps : KeepsSettled s (s.takeIn index p) p.edge p.key) :
    Inv beaconOf (s.takeIn index p) := by
  refine Inv.of_keepsSettled h rfl fun edge key => ?_
  by_cases hself : p.edge = edge ∧ p.key = key
  · obtain ⟨rfl, rfl⟩ := hself
    exact hkeeps
  · exact .inl (settled_takeIn_of_ne (pendingOf_spec hp).1 hself)

/-- An edge evicts its copy. -/
theorem Inv.evictLocal (h : Inv beaconOf s) {edge : Nat} {key : Key}
    (hkeeps : KeepsSettled s (s.evictLocalEdgeCache edge key) edge key) :
    Inv beaconOf (s.evictLocalEdgeCache edge key) := by
  revert hkeeps
  rw [State.evictLocalEdgeCache]
  split
  · exact fun _ => h
  · intro hkeeps
    refine Inv.of_keepsSettled h rfl fun e k => ?_
    by_cases hself : e = edge ∧ k = key
    · obtain ⟨rfl, rfl⟩ := hself
      exact hkeeps
    · refine .inl (congrArg (foldl _ · _) ?_)
      exact (isNeighborCached_setFlag edge key none).trans (if_neg hself)

/-! ### Directory updates -/

section Update

variable {w w' : CooperationWrapper} {key : Key} {source edge : Nat}
variable {reply : CooperationWrapper.UpdateReply} {flag : Option Bool}

variable {requirement : MetadataUpdateRequirement}

theorem key_of_mem_notification {p : Pending}
    (hp : p ∈ processMetadataUpdateRequirement key requirement) : p.key = key := by
  rw [processMetadataUpdateRequirement] at hp
  split at hp
  · rw [mem_singleton] at hp
    rw [hp]
  · cases hp

/-- A notification gives no flag to a key that is not cached. -/
theorem foldl_notification_none (requirement : MetadataUpdateRequirement) :
    (processMetadataUpdateRequirement key requirement).foldl (Pending.affect edge key) none =
      none := by
  rw [processMetadataUpdateRequirement]
  split
  · simp only [foldl_cons, foldl_nil, Pending.affect, Pending.takeIn,
      updateIsNeighborCached, ite_self]
  · rfl

/-- A notification that says what holds after the update keeps the flag right. -/
theorem right_notified (hright : Right w key edge flag)
    (htells : w.Listed key edge → w'.Listed key edge ∧
      requirement.Tells edge (w.NeighborListed key edge) (w'.NeighborListed key edge)) :
    Right w' key edge
      ((processMetadataUpdateRequirement key requirement).foldl (Pending.affect edge key)
        flag) := by
  rw [processMetadataUpdateRequirement]
  by_cases hneed : requirement.NeedUpdate
  · simp only [MetadataUpdateRequirement.Tells, hneed, if_true] at htells ⊢
    rw [foldl_cons, foldl_nil, Pending.affect, Pending.takeIn]
    cases flag with
    | none =>
      -- a notification for a key that is not cached is dropped
      simp only [updateIsNeighborCached, ite_self]
      exact right_none
    | some old =>
      obtain ⟨hlisted, hnotify, hiff⟩ := htells (hright old rfl).1
      simp only [hnotify, and_self, if_true, updateIsNeighborCached]
      intro v hv
      cases hv
      exact ⟨hlisted, hiff⟩
  · simp only [MetadataUpdateRequirement.Tells, hneed, if_false] at htells ⊢
    intro v hv
    obtain ⟨hold, hiff⟩ := hright v hv
    obtain ⟨hlisted, hsame⟩ := htells hold
    exact ⟨hlisted, hiff.trans hsame.symm⟩

/-- An admission notifies the edges whose flag changes. -/
theorem right_admission (hinv : w.Invariant)
    (h : w.updateDirectoryTable key source true ⟨source⟩ = some (w', reply))
    (hright : Right w key edge flag) :
    Right w' key edge ((processMetadataUpdateRequirement key reply.requirement).foldl
      (Pending.affect edge key) flag) := by
  apply right_notified hright
  intro hold
  refine ⟨(listed_admission hinv h).2 (.inr hold), ?_⟩
  exact updateDirectoryTable_tells hinv h hold fun hadmitted => by cases hadmitted

/-- An eviction notifies the other edges whose flag changes. -/
theorem right_eviction (hinv : w.Invariant)
    (h : w.updateDirectoryTable key source false ⟨source⟩ = some (w', reply))
    (hright : Right w key edge flag) (hstays : edge ≠ source) :
    Right w' key edge ((processMetadataUpdateRequirement key reply.requirement).foldl
      (Pending.affect edge key) flag) := by
  have hne : (⟨edge⟩ : DirectoryInfo) ≠ ⟨source⟩ := fun heq => hstays (DirectoryInfo.mk.inj heq)
  apply right_notified hright
  intro hold
  refine ⟨(listed_eviction hinv h).2 ⟨fun hand => hne hand.2, hold⟩, ?_⟩
  exact updateDirectoryTable_tells hinv h hold fun _ => hne

/-- The answer to an admission gives the source a right flag, if it has none. -/
theorem right_answer (hinv : w.Invariant)
    (h : w.updateDirectoryTable key source true ⟨source⟩ = some (w', reply))
    (hright : Right w' key source flag) :
    Right w' key source (admitLocalCache flag reply.isNeighborCached) := by
  cases flag with
  | some old => exact hright
  | none =>
    intro v hv
    cases hv
    refine ⟨(listed_admission hinv h).2 (.inl ⟨rfl, rfl⟩), ?_⟩
    exact isNeighborCached_iff hinv h

/-- The other keys of the beacon keep their directory infos. -/
theorem right_of_ne (hinv : w.Invariant) {k : Key} {isAdmit : Bool}
    (h : w.updateDirectoryTable key source isAdmit ⟨source⟩ = some (w', reply)) (hk : k ≠ key)
    (hright : Right w k edge flag) : Right w' k edge flag := by
  have hlisted : ∀ other, w'.Listed k other ↔ w.Listed k other := by
    intro other
    cases isAdmit with
    | true =>
      rw [listed_admission hinv h]
      exact or_iff_right fun hand => hk hand.1
    | false =>
      rw [listed_eviction hinv h]
      exact and_iff_right fun hand => hk hand.1
  intro v hv
  simp only [CooperationWrapper.NeighborListed, hlisted]
  exact hright v hv

end Update

/-- The beacon processes a directory update. -/
theorem Inv.updateDirectory (h : Inv beaconOf s) {r : DirectoryUpdateRequest}
    (hmeets : r.isAdmit = false → s.settled r.edge r.key = none)
    (hstep : updateDirectory beaconOf s r = some s') : Inv beaconOf s' := by
  have hbeacon := h.beacon (beaconOf r.key)
  simp only [NeighborCached.updateDirectory, bind_eq_bind, bind_eq_some_iff] at hstep
  obtain ⟨⟨w, reply⟩, hupdate, hstep⟩ := hstep
  cases hstep
  refine ⟨fun b => ?_, fun edge key => ?_⟩
  · simp only [update_apply]
    split
    · exact invariant_updateDirectoryTable hbeacon hupdate
    · exact h.beacon b
  have hright := h.right edge key
  simp only [State.settled, foldl_append, update_apply] at hright hmeets ⊢
  by_cases hkey : key = r.key
  · subst hkey
    rw [if_pos rfl]
    cases hadmitted : r.isAdmit with
    | true =>
      rw [hadmitted] at hupdate
      have hnotified := right_admission hbeacon hupdate hright
      simp only [if_true, foldl_cons, foldl_nil, Pending.affect, Pending.takeIn]
      split
      · next hself =>
        obtain ⟨rfl, -⟩ := hself
        exact right_answer hbeacon hupdate hnotified
      · exact hnotified
    | false =>
      rw [hadmitted] at hupdate
      simp only [Bool.false_eq_true, if_false, foldl_nil]
      by_cases hedge : edge = r.edge
      · -- the evicted edge has no copy left or to come
        subst hedge
        rw [hmeets hadmitted, foldl_notification_none]
        exact right_none
      · exact right_eviction hbeacon hupdate hright hedge
  · -- the messages of this update are about another key
    have hnotice : ∀ flag, (processMetadataUpdateRequirement r.key reply.requirement).foldl
        (Pending.affect edge key) flag = flag := by
      apply foldl_affect_of_ne
      intro p hp hand
      exact hkey (hand.2.symm.trans (key_of_mem_notification hp))
    rw [hnotice, foldl_affect_of_ne]
    · split
      · next hb =>
        rw [hb] at hright
        exact right_of_ne hbeacon hupdate hkey hright
      · exact hright
    · intro p hp hand
      split at hp
      · rw [mem_singleton] at hp
        rw [hp] at hand
        exact hkey hand.2.symm
      · cases hp

/-- Lookups and write locks list no other edges. -/
theorem Inv.beaconOperation (h : Inv beaconOf s) {beacon : Nat} {op : CooperationWrapper.Operation}
    (hstep : beaconOperation s beacon op = some s') : Inv beaconOf s' := by
  have hbeacon := h.beacon beacon
  -- the operation leaves the directory infos of the beacon where they are
  have hsame : ∀ {w : CooperationWrapper} {reply : CooperationWrapper.Reply},
      (s.beacons beacon).step op = some (w, reply) →
      (∀ k other, w.Listed k other ↔ (s.beacons beacon).Listed k other) →
      Inv beaconOf { s with beacons := update s.beacons beacon w } := by
    intro w reply hop hlisted
    refine ⟨fun b => ?_, fun edge key v hv => ?_⟩
    · simp only [update_apply]
      split
      · exact invariant_step hbeacon hop
      · exact h.beacon b
    · have hright := h.right edge key v hv
      simp only [update_apply]
      split
      · next hb =>
        rw [hb] at hright
        simp only [CooperationWrapper.NeighborListed, hlisted]
        exact hright
      · exact hright
  cases op with
  | updateDirectory key source isAdmit dirinfo =>
    cases hstep
    exact h
  | lookupByCacheServer key source draw =>
    obtain ⟨⟨w, reply⟩, hop, hstep⟩ := bind_eq_some_iff.1 hstep
    cases hstep
    obtain ⟨rfl, -⟩ := step_cases hop
    exact hsame hop fun _ _ => Iff.rfl
  | lookupByBeaconServer key source addr draw =>
    obtain ⟨⟨w, reply⟩, hop, hstep⟩ := bind_eq_some_iff.1 hstep
    cases hstep
    obtain ⟨r, hlookup, -⟩ := step_cases hop
    exact hsame hop fun _ _ => listed_lookup hbeacon hlookup
  | acquireByCacheServer key source =>
    obtain ⟨⟨w, reply⟩, hop, hstep⟩ := bind_eq_some_iff.1 hstep
    cases hstep
    obtain ⟨r, hacquire, -⟩ := step_cases hop
    exact hsame hop fun _ _ => listed_acquire hbeacon hacquire
  | acquireByBeaconServer key source addr =>
    obtain ⟨⟨w, reply⟩, hop, hstep⟩ := bind_eq_some_iff.1 hstep
    cases hstep
    obtain ⟨r, hacquire, -⟩ := step_cases hop
    exact hsame hop fun _ _ => listed_acquire hbeacon hacquire
  | release key source dirinfo =>
    obtain ⟨⟨w, reply⟩, hop, hstep⟩ := bind_eq_some_iff.1 hstep
    cases hstep
    obtain ⟨r, hrelease, -⟩ := step_cases hop
    exact hsame hop fun _ _ => listed_release hbeacon hrelease

/-! ### Steps and runs -/

/-- Every step that meets the condition keeps the invariant. -/
theorem Inv.step (h : Inv beaconOf s) {a : Action} {out : Unit} (hmeets : Meets beaconOf s a)
    (hstep : step beaconOf s a = some (s', out)) : Inv beaconOf s' := by
  cases a with
  | requestAdmission edge key =>
    cases hstep
    exact ⟨h.beacon, h.right⟩
  | evictLocal edge key =>
    cases hstep
    exact h.evictLocal hmeets
  | updateDirectory index =>
    simp only [NeighborCached.step] at hstep
    split at hstep
    · cases hstep
      exact h
    · next r hr =>
      obtain ⟨s₁, hupdate, heq⟩ := map_eq_some_iff.1 hstep
      cases heq
      have hrest : Inv beaconOf { s with requests := s.requests.eraseIdx index } :=
        ⟨h.beacon, h.right⟩
      exact hrest.updateDirectory (hmeets r hr) hupdate
  | processMetadataUpdateRequirement index =>
    simp only [NeighborCached.step] at hstep
    split at hstep
    · cases hstep
      exact h
    · next p hp =>
      split at hstep
      · next hself =>
        cases hstep
        exact h.takeIn hp (hmeets p hp hself)
      · cases hstep
        refine Inv.of_keepsSettled h rfl fun edge key => ?_
        exact .inl (settled_send hp)
  | processMetadataUpdateRequest index =>
    simp only [NeighborCached.step] at hstep
    split at hstep
    · cases hstep
      exact h
    · next p hp =>
      cases hstep
      exact h.takeIn hp (hmeets p hp)
  | admitLocal index =>
    simp only [NeighborCached.step] at hstep
    split at hstep
    · cases hstep
      exact h
    · next p hp =>
      cases hstep
      exact h.takeIn hp (hmeets p hp)
  | beaconOperation beacon op =>
    obtain ⟨s₁, hop, heq⟩ := map_eq_some_iff.1 hstep
    cases heq
    exact h.beaconOperation hop

theorem inv_of_runs {tr : List (Action × Unit)}
    (hrun : Runs (step beaconOf) (Meets beaconOf) initial tr s) : Inv beaconOf s :=
  hrun.invariant (inv_initial beaconOf) fun hinv hmeets hstep => hinv.step hmeets hstep

end Invariant

/-- In every run whose steps meet the condition, when nothing about the key is under way, an edge
that caches the key has its flag set iff the beacon lists another edge. -/
theorem isNeighborCached_iff_neighborListed {beaconOf : Key → Nat} {tr : List (Action × Unit)}
    {s : State} (hrun : Runs (step beaconOf) (Meets beaconOf) initial tr s) {key : Key}
    (hquiet : Quiescent s key) {edge : Nat} {flag : Bool}
    (hcached : s.isNeighborCached edge key = some flag) :
    flag = true ↔ NeighborListed beaconOf s edge key := by
  have hinv := inv_of_runs hrun
  have hsettled : s.settled edge key = some flag := (settled_of_quiescent hquiet).trans hcached
  exact (hinv.right edge key flag hsettled).2

/-! ## Runs -/

/-- Edges 1 and 2 admit a key that is beaconed by edge 0, each before the next one asks, and edge 1
takes the notification in. -/
def admissionsInOrder (key : Key) : List Action :=
  [.requestAdmission 1 key, .updateDirectory 0, .admitLocal 0, .requestAdmission 2 key,
    .updateDirectory 0, .processMetadataUpdateRequirement 0, .processMetadataUpdateRequest 0,
    .admitLocal 0]

theorem isNeighborCached_iff_neighborListed_inOrder :
    ∃ tr s, Runs (step fun _ => 0) (Meets fun _ => 0) initial tr s ∧
      s.isNeighborCached 1 ⟨[]⟩ = some true ∧
      (true = true ↔ NeighborListed (fun _ => 0) s 1 ⟨[]⟩) := by
  have hexec : (exec (step fun _ => 0) (Meets fun _ => 0) initial (admissionsInOrder ⟨[]⟩)).any
      (fun s => decide (Quiescent s ⟨[]⟩ ∧ s.isNeighborCached 1 ⟨[]⟩ = some true)) = true := by
    decide +kernel
  obtain ⟨tr, s, hrun, -, hs⟩ := exists_runs_of_any hexec
  obtain ⟨hquiet, hcached⟩ := of_decide_eq_true hs
  exact ⟨tr, s, hrun, hcached, isNeighborCached_iff_neighborListed hrun hquiet hcached⟩

/-- The same admissions, but the notification arrives before edge 1 has admitted the object. -/
def admissionsCrossing (key : Key) : List Action :=
  [.requestAdmission 1 key, .updateDirectory 0, .requestAdmission 2 key, .updateDirectory 0,
    .processMetadataUpdateRequirement 1, .processMetadataUpdateRequest 1, .admitLocal 0,
    .admitLocal 0]

/-- A notification that overtakes the admission it is about is lost, and the flag stays wrong. -/
theorem admission_overtaken :
    ¬ ∀ (beaconOf : Key → Nat) (tr : List (Action × Unit)) (s : State),
      Runs (step beaconOf) anyAction initial tr s → ∀ key, Quiescent s key →
        ∀ edge flag, s.isNeighborCached edge key = some flag →
          (flag = true ↔ NeighborListed beaconOf s edge key) := by
  intro hall
  have hexec : (exec (step fun _ => 0) anyAction initial (admissionsCrossing ⟨[]⟩)).any
      (fun s => decide (Quiescent s ⟨[]⟩ ∧ s.isNeighborCached 1 ⟨[]⟩ = some false ∧
        Listed (fun _ => 0) s 2 ⟨[]⟩)) = true := by
    decide +kernel
  obtain ⟨tr, s, hrun, -, hs⟩ := exists_runs_of_any hexec
  obtain ⟨hquiet, hcached, hlisted⟩ := of_decide_eq_true hs
  have hiff := hall (fun _ => 0) tr s hrun ⟨[]⟩ hquiet 1 false hcached
  exact absurd (hiff.2 ⟨2, by decide, hlisted⟩) (by decide)

end Covered.Edge.NeighborCached
