import Covered.Lib.Checked
import Covered.Lib.Execution

/-!
# Hybrid fetching and fast-path placement

A local get samples whether its edge tracks the key, and then looks the key up at the beacon until
it is not blocked. The beacon answers for a tracked key that the sender has to fetch the value for a
placement (hybrid fetching), and for an untracked one with a hint for a fast-path placement. After
the fetch the worker asserts that it was asked for at most one of the two and that the sample
agrees.

Each lookup samples the tracking anew. `exclusive_step_iff` says when the assertions survive a step:
an answer that asks for one of the two is an answer about the tracking of the first sample.
-/

set_option autoImplicit false

namespace Covered.Edge.HybridFetching

open Lib.Checked Lib.Execution

/-! ## The beacon -/

/-- What the beacon knows of the key and of the edge that looks it up. -/
structure BeaconView where
  isBeingWritten : Bool
  isValidDirectoryExist : Bool
  isSourceCached : Bool
  isSourcePreserved : Bool
  /-- An aggregated popularity of the source is removed. -/
  hasOldPopularity : Bool
  /-- The result of the placement calculation, if it is made. -/
  bestPlacementEdgeset : Option (List Nat)
  /-- The beacon has a valid value when it fetches for the placement. -/
  isLocalCachedAndValid : Bool
  /-- Another edge has one. -/
  isNeighborCachedAndValid : Bool

def isTrackedBySourceEdgeNode (isTracked : Bool) (view : BeaconView) : Bool :=
  isTracked && !view.isSourceCached

/-- The key is neither tracked, cached nor being admitted by the source, and was not before. -/
def needFastPathHint (isTracked : Bool) (view : BeaconView) : Bool :=
  !isTrackedBySourceEdgeNode isTracked view && !view.isSourceCached &&
    !view.isSourcePreserved && !view.hasOldPopularity

/-- There is a best placement, and the sender is the one to fetch the value for it. -/
def needHybridFetching (senderIsBeacon isTracked : Bool) (view : BeaconView) : Bool :=
  isTrackedBySourceEdgeNode isTracked view && view.bestPlacementEdgeset.isSome &&
    (!view.isLocalCachedAndValid && (senderIsBeacon || !view.isNeighborCachedAndValid))

/-- The three messages that answer a lookup. -/
inductive DirectoryLookupResponse
  | covered
  | coveredFastpath
  | coveredFghybrid (bestPlacementEdgeset : List Nat)
deriving DecidableEq

def getRspToLookupLocalDirectory (isTracked : Bool) (view : BeaconView) :
    DirectoryLookupResponse :=
  if needHybridFetching false isTracked view = true then
    .coveredFghybrid (view.bestPlacementEdgeset.getD [])
  else if needFastPathHint isTracked view = true then .coveredFastpath
  else .covered

/-! ## A local get -/

inductive Phase
  /-- At the start of the loop of `fetchDataFromNeighbor`. -/
  | checking
  | requesting
  | fetched
deriving DecidableEq

/-- The key at the edge and the variables of the worker. -/
structure LocalGet where
  isLocalCached : Bool
  isTracked : Bool
  isTrackedBeforeFetchValue : Bool
  phase : Phase
  bestPlacementEdgeset : List Nat := []
  needHybridFetching : Bool := false
  isFastPathHintValid : Bool := false

inductive RedirectResult
  | currentIsTarget
  | notCached
  | valid
  | invalid
deriving DecidableEq

namespace LocalGet

/-- A get that found no valid value goes on with a lookup. -/
def start (isLocalCached isTracked isLocalCachedAndValid : Bool) : LocalGet where
  isLocalCached := isLocalCached
  isTracked := isTracked
  isTrackedBeforeFetchValue := isTracked
  phase := if isLocalCachedAndValid = true then .fetched else .checking

/-- The rest of a round: writes and an invalid copy at the target block the worker. -/
def endRound (s : LocalGet) (isBeingWritten isValidDirectoryExist : Bool)
    (result : RedirectResult) : LocalGet :=
  { s with phase :=
      if isBeingWritten = true ∨ isValidDirectoryExist = true ∧ result = .invalid then .checking
      else .fetched }

/-- The worker uses a cached directory of a tracked key without a lookup. -/
def needLookupBeaconDirectory (s : LocalGet) (hasCachedDirectory : Bool)
    (result : RedirectResult) : LocalGet :=
  if s.isTracked && hasCachedDirectory then s.endRound false true result
  else { s with phase := .requesting }

/-- The hint is not taken over. -/
def lookupLocalDirectory (s : LocalGet) (view : BeaconView) : LocalGet :=
  { s with
    bestPlacementEdgeset := view.bestPlacementEdgeset.getD []
    needHybridFetching := HybridFetching.needHybridFetching true s.isTracked view }

/-- A hint of an earlier answer is kept. -/
def processRspToLookupBeaconDirectory (s : LocalGet) : DirectoryLookupResponse → LocalGet
  | .covered => { s with bestPlacementEdgeset := [], needHybridFetching := false }
  | .coveredFastpath => { s with
      bestPlacementEdgeset := []
      needHybridFetching := false
      isFastPathHintValid := true }
  | .coveredFghybrid edgeset => { s with
      bestPlacementEdgeset := edgeset
      needHybridFetching := true }

/-- The four assertions. -/
def afterFetchingValue (s : LocalGet) : Option Unit := do
  if s.needHybridFetching = true then
    require (¬ s.isFastPathHintValid = true)
    require (s.isTrackedBeforeFetchValue = true)
  if s.isFastPathHintValid = true then
    require (¬ s.needHybridFetching = true)
    require (¬ s.isTrackedBeforeFetchValue = true)

end LocalGet

/-- What other workers of the edge do to the key, and the steps of the get. -/
inductive Action
  | track
  | untrack
  | admitObject
  | evict (isTracked : Bool)
  | needLookup (hasCachedDirectory : Bool) (result : RedirectResult)
  | lookup (view : BeaconView) (result : RedirectResult)

/-- One step. A lookup at another edge follows the check, one at the edge itself is the check. -/
def step (currentIsBeacon : Bool) (s : LocalGet) : Action → Option (LocalGet × Unit)
  | .track => some ({ s with isTracked := !s.isLocalCached }, ())
  | .untrack => some ({ s with isTracked := false }, ())
  | .admitObject => some ({ s with isLocalCached := true, isTracked := false }, ())
  | .evict isTracked => some ({ s with isLocalCached := false, isTracked := isTracked }, ())
  | .needLookup hasCachedDirectory result => do
      require (currentIsBeacon = false ∧ s.phase = .checking)
      return (s.needLookupBeaconDirectory hasCachedDirectory result, ())
  | .lookup view result => do
      require (s.phase = if currentIsBeacon = true then .checking else .requesting)
      let s' := if currentIsBeacon = true then s.lookupLocalDirectory view
        else s.processRspToLookupBeaconDirectory (getRspToLookupLocalDirectory s.isTracked view)
      return (s'.endRound view.isBeingWritten view.isValidDirectoryExist result, ())

/-- Whether an answer asks for hybrid fetching or gives a hint. -/
def AsksFor (currentIsBeacon isTracked : Bool) (view : BeaconView) : Prop :=
  needHybridFetching currentIsBeacon isTracked view = true ∨
    currentIsBeacon = false ∧ needFastPathHint isTracked view = true

instance (currentIsBeacon isTracked : Bool) (view : BeaconView) :
    Decidable (AsksFor currentIsBeacon isTracked view) := inferInstanceAs (Decidable (_ ∨ _))

/-- A lookup whose answer asks for one of the two finds the tracking of the first sample. -/
def Meets (currentIsBeacon : Bool) (s : LocalGet) : Action → Prop
  | .lookup view _ => AsksFor currentIsBeacon s.isTracked view →
      s.isTracked = s.isTrackedBeforeFetchValue
  | _ => True

instance (currentIsBeacon : Bool) (s : LocalGet) :
    (a : Action) → Decidable (Meets currentIsBeacon s a)
  | .track => inferInstanceAs (Decidable True)
  | .untrack => inferInstanceAs (Decidable True)
  | .admitObject => inferInstanceAs (Decidable True)
  | .evict _ => inferInstanceAs (Decidable True)
  | .needLookup _ _ => inferInstanceAs (Decidable True)
  | .lookup _ _ => inferInstanceAs (Decidable (_ → _))

/-! ## The answers -/

section Answers

variable {senderIsBeacon isTracked : Bool} {view : BeaconView}

theorem isTracked_of_needHybridFetching
    (h : needHybridFetching senderIsBeacon isTracked view = true) : isTracked = true := by
  simp only [needHybridFetching, isTrackedBySourceEdgeNode, Bool.and_eq_true] at h
  exact h.1.1.1

theorem not_isTracked_of_needFastPathHint (h : needFastPathHint isTracked view = true) :
    isTracked = false := by
  simp only [needFastPathHint, isTrackedBySourceEdgeNode, Bool.and_eq_true, Bool.not_eq_true'] at h
  obtain ⟨⟨⟨htracked, hcached⟩, -⟩, -⟩ := h
  rw [hcached, Bool.not_false, Bool.and_true] at htracked
  exact htracked

end Answers

/-! ## The assertions -/

variable {currentIsBeacon : Bool} {s s' : LocalGet} {a : Action} {out : Unit}

/-- The sample before the fetch agrees with what the worker was asked for. -/
structure Exclusive (s : LocalGet) : Prop where
  hybrid : s.needHybridFetching = true → s.isTrackedBeforeFetchValue = true
  hint : s.isFastPathHintValid = true → s.isTrackedBeforeFetchValue = false

/-- The sample alone decides all four assertions. -/
theorem afterFetchingValue_isSome_iff : s.afterFetchingValue.isSome = true ↔ Exclusive s := by
  rw [LocalGet.afterFetchingValue]
  by_cases hhybrid : s.needHybridFetching = true
  · by_cases hhint : s.isFastPathHintValid = true
    · -- both: the first assertion fails, and no sample agrees with both
      have hnone : ¬ Exclusive s := fun h => by
        have htracked := h.hybrid hhybrid
        rw [h.hint hhint] at htracked
        cases htracked
      simp [hhybrid, hhint, require, hnone]
    · by_cases htracked : s.isTrackedBeforeFetchValue = true
      · have hall : Exclusive s := ⟨fun _ => htracked, fun h => absurd h hhint⟩
        simp [hhybrid, hhint, htracked, require, hall]
      · have hnone : ¬ Exclusive s := fun h => htracked (h.hybrid hhybrid)
        simp [hhybrid, hhint, htracked, require, hnone]
  · by_cases hhint : s.isFastPathHintValid = true
    · by_cases htracked : s.isTrackedBeforeFetchValue = true
      · have hnone : ¬ Exclusive s := fun h => by
          rw [h.hint hhint] at htracked
          cases htracked
        simp [hhybrid, hhint, htracked, require, hnone]
      · have hall : Exclusive s :=
          ⟨fun h => absurd h hhybrid, fun _ => Bool.not_eq_true _ ▸ htracked⟩
        simp [hhybrid, hhint, htracked, require, hall]
    · have hall : Exclusive s := ⟨fun h => absurd h hhybrid, fun h => absurd h hhint⟩
      simp [hhybrid, hhint, hall]

/-- A step changes no sample, and what the worker was asked for in a lookup only. -/
theorem Exclusive.congr (h : Exclusive s)
    (hsample : s'.isTrackedBeforeFetchValue = s.isTrackedBeforeFetchValue)
    (hhybrid : s'.needHybridFetching = s.needHybridFetching)
    (hhint : s'.isFastPathHintValid = s.isFastPathHintValid) : Exclusive s' := by
  constructor
  · rw [hsample, hhybrid]
    exact h.hybrid
  · rw [hsample, hhint]
    exact h.hint

/-- A lookup keeps the agreement iff an answer that asks for something is about the tracking of the
first sample. -/
theorem exclusive_lookup_iff (h : Exclusive s) {view : BeaconView} {result : RedirectResult}
    (hstep : step currentIsBeacon s (.lookup view result) = some (s', out)) :
    Exclusive s' ↔ Meets currentIsBeacon s (.lookup view result) := by
  simp only [step, bind_eq_some_iff, require_eq_some_iff, pure_eq_some_iff, Prod.mk.injEq] at hstep
  obtain ⟨-, -, rfl, -⟩ := hstep
  cases currentIsBeacon with
  | true =>
    constructor
    · rintro hs (hhybrid | ⟨hremote, -⟩)
      · exact (isTracked_of_needHybridFetching hhybrid).trans (hs.hybrid hhybrid).symm
      · cases hremote
    · intro hmeets
      refine ⟨fun hhybrid => ?_, h.hint⟩
      exact (hmeets (.inl hhybrid)).symm.trans (isTracked_of_needHybridFetching hhybrid)
  | false =>
    rw [if_neg Bool.false_ne_true, getRspToLookupLocalDirectory]
    by_cases hhybrid : needHybridFetching false s.isTracked view = true
    · -- the worker is asked for the value; a hint from before is one for an untracked key
      rw [if_pos hhybrid]
      have htracked := isTracked_of_needHybridFetching hhybrid
      constructor
      · intro hs _
        exact htracked.trans (hs.hybrid rfl).symm
      · intro hmeets
        exact ⟨fun _ => (hmeets (.inl hhybrid)).symm.trans htracked, h.hint⟩
    · rw [if_neg hhybrid]
      by_cases hhint : needFastPathHint s.isTracked view = true
      · rw [if_pos hhint]
        have htracked := not_isTracked_of_needFastPathHint hhint
        constructor
        · intro hs _
          exact htracked.trans (hs.hint rfl).symm
        · intro hmeets
          refine ⟨fun hfalse => (by cases hfalse), fun _ => ?_⟩
          exact (hmeets (.inr ⟨rfl, hhint⟩)).symm.trans htracked
      · -- a normal answer withdraws the hybrid fetching and keeps the hint
        rw [if_neg hhint]
        refine iff_of_true ⟨fun hfalse => (by cases hfalse), h.hint⟩ ?_
        rintro (hasks | ⟨-, hasks⟩)
        · exact absurd hasks hhybrid
        · exact absurd hasks hhint

/-- From a state in which they agree, a step leads to such a state iff it meets the condition. -/
theorem exclusive_step_iff (h : Exclusive s) (hstep : step currentIsBeacon s a = some (s', out)) :
    Exclusive s' ↔ Meets currentIsBeacon s a := by
  cases a with
  | track =>
    cases hstep
    exact iff_of_true (h.congr rfl rfl rfl) trivial
  | untrack =>
    cases hstep
    exact iff_of_true (h.congr rfl rfl rfl) trivial
  | admitObject =>
    cases hstep
    exact iff_of_true (h.congr rfl rfl rfl) trivial
  | evict isTracked =>
    cases hstep
    exact iff_of_true (h.congr rfl rfl rfl) trivial
  | needLookup hasCachedDirectory result =>
    simp only [step, bind_eq_some_iff, require_eq_some_iff, pure_eq_some_iff,
      Prod.mk.injEq] at hstep
    obtain ⟨-, -, rfl, -⟩ := hstep
    refine iff_of_true ?_ trivial
    rw [LocalGet.needLookupBeaconDirectory]
    split
    · exact h.congr rfl rfl rfl
    · exact h.congr rfl rfl rfl
  | lookup view result => exact exclusive_lookup_iff h hstep

theorem exclusive_start (isLocalCached isTracked isLocalCachedAndValid : Bool) :
    Exclusive (.start isLocalCached isTracked isLocalCachedAndValid) :=
  ⟨fun h => (by cases h), fun h => (by cases h)⟩

/-- For every local get, in every interleaving of its lookups with what other workers of the edge do
to the key: if every answer that asks for hybrid fetching or gives a hint finds the tracking that
was sampled before the fetch, no assertion fails after the fetch. -/
theorem afterFetchingValue_isSome_of_runs
    (currentIsBeacon isLocalCached isTracked isLocalCachedAndValid : Bool)
    (tr : List (Action × Unit)) (s : LocalGet)
    (h : Runs (step currentIsBeacon) (Meets currentIsBeacon)
      (.start isLocalCached isTracked isLocalCachedAndValid) tr s) :
    s.afterFetchingValue.isSome = true :=
  afterFetchingValue_isSome_iff.2 <| h.invariant
    (exclusive_start isLocalCached isTracked isLocalCachedAndValid)
    fun hinv hmeets hstep => (exclusive_step_iff hinv hstep).2 hmeets

/-! ## Concrete runs -/

/-- A beacon at which nothing is known of the key. -/
def unknownKey : BeaconView where
  isBeingWritten := false
  isValidDirectoryExist := false
  isSourceCached := false
  isSourcePreserved := false
  hasOldPopularity := false
  bestPlacementEdgeset := none
  isLocalCachedAndValid := false
  isNeighborCachedAndValid := false

/-- A get of an untracked key that is blocked once and takes the hint over. -/
theorem afterFetchingValue_isSome_hint : ∃ tr s,
    Runs (step false) (Meets false) (.start false false false) tr s ∧
      s.isFastPathHintValid = true ∧ s.phase = .fetched ∧ s.afterFetchingValue.isSome = true := by
  have hexec : (exec (step false) (Meets false) (.start false false false)
      [.needLookup true .notCached, .lookup { unknownKey with isBeingWritten := true } .notCached,
        .needLookup true .notCached, .track, .untrack, .lookup unknownKey .notCached]).any
        (fun s => s.isFastPathHintValid && decide (s.phase = .fetched)) = true := by
    decide +kernel
  obtain ⟨tr, s, hrun, -, hs⟩ := exists_runs_of_any hexec
  rw [Bool.and_eq_true, decide_eq_true_eq] at hs
  exact ⟨tr, s, hrun, hs.1, hs.2,
    afterFetchingValue_isSome_of_runs false false false false tr s hrun⟩

/-- Another worker that drops the metadata of the key between the sample and the lookup makes an
assertion fail. -/
theorem hint_after_untrack : ¬ ∀ currentIsBeacon isLocalCached isTracked isLocalCachedAndValid tr s,
    Runs (step currentIsBeacon) (fun _ _ => True)
        (.start isLocalCached isTracked isLocalCachedAndValid) tr s →
      s.phase = .fetched → s.afterFetchingValue.isSome = true := by
  intro h
  have hexec : (exec (step false) (fun _ _ => True) (.start false true false)
      [.untrack, .needLookup false .notCached, .lookup unknownKey .notCached]).any
        (fun s => decide (s.phase = .fetched) && !s.afterFetchingValue.isSome) = true := by
    decide +kernel
  obtain ⟨tr, s, hrun, -, hs⟩ := exists_runs_of_any hexec
  rw [Bool.and_eq_true, decide_eq_true_eq, Bool.not_eq_true'] at hs
  rw [h false false true false tr s hrun hs.1] at hs
  cases hs.2

end Covered.Edge.HybridFetching
