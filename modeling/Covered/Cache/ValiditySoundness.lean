import Covered.Cache.CoveredCacheWrapper
import Covered.Lib.Execution

/-!
# What a valid hit returns

A machine whose actions are the calls of a cache wrapper over the COVERED local cache. The trace
records each call with what it returned. `lastSupplied` reads from a trace which value a key should
have: the one of the latest call that supplied a value for it, unless the key was invalidated,
admitted as invalid or evicted since.

A call that admits a key as valid although it is cached is reported as successful, but the cache
keeps the old value; the flag is set for this old value. `Meets` excludes such a call unless it has
the value that is cached, and `object_of_not_meets` says that nothing less will do.
`get_returns_lastSupplied` is the result for every run, and
`get_returns_replaced_value` is a run in which an invalidated value comes back.
-/

set_option autoImplicit false

namespace Covered.Cache

open Common Lib Lib.Execution Option

/-- The calls of a cache wrapper. -/
inductive Call
  | get (key : Key) (rank : Nat)
  | getP2p (key : Key) (rank : Nat)
  | update (key : Key) (value : Value) (rank : Nat)
  | remove (key : Key) (rank : Nat)
  | updateIfInvalidForGetrsp (key : Key) (value : Value) (rank : Nat)
  | admitObject (key : Key) (value : Value) (isValid : Bool) (beaconEdgeidx rank : Nat)
  | evict (requiredSize : Nat)
  | invalidateKeyForLocalCachedObject (key : Key)

/-- What a call returns. -/
inductive Return
  | hit (value : Option Value)
  | flag (isCached : Bool)
  | victims (victims : List (Key × Value))
  | void
deriving DecidableEq

/-- A call of a read, and the key it reads. -/
def Call.readKey? : Call → Option Key
  | .get key _ => some key
  | .getP2p key _ => some key
  | _ => none

namespace CoveredCacheWrapper

def create (capacityBytes : Nat) : CoveredCacheWrapper := ⟨{ capacityBytes }, {}, ∅⟩

/-- One call; `none` is a failed assertion or an exit. -/
def call (w : CoveredCacheWrapper) : Call → Option (CoveredCacheWrapper × Return)
  | .get key rank => (w.get key rank).map fun r => (r.1, .hit r.2)
  | .getP2p key rank => (w.get key rank).map fun r => (r.1, .hit r.2)
  | .update key value rank => (w.update key value rank).map fun r => (r.1, .flag r.2)
  | .remove key rank => (w.remove key rank).map fun r => (r.1, .flag r.2)
  | .updateIfInvalidForGetrsp key value rank =>
      (w.updateIfInvalidForGetrsp key value rank).map fun r => (r.1, .flag r.2)
  | .admitObject key value isValid beaconEdgeidx rank =>
      (w.admitObject key value isValid beaconEdgeidx rank).map fun w' => (w', .void)
  | .evict requiredSize => (w.evict requiredSize).map fun r => (r.1, .victims r.2)
  | .invalidateKeyForLocalCachedObject key =>
      some (w.invalidateKeyForLocalCachedObject key, .void)

end CoveredCacheWrapper

open CoveredCacheWrapper

/-- The value that a call supplies for a key: an update of a cached key, the repair of an invalid
one, or an admission as valid. -/
def supplies (key : Key) : Call × Return → Option Value
  | (.update k value _, .flag true) => if k = key then some value else none
  | (.remove k _, .flag true) => if k = key then some deletedValue else none
  | (.updateIfInvalidForGetrsp k value _, .flag true) => if k = key then some value else none
  | (.admitObject k value true _ _, _) => if k = key then some value else none
  | _ => none

/-- A call after which the value of a key does not count any more. -/
def withdraws (key : Key) : Call × Return → Bool
  | (.invalidateKeyForLocalCachedObject k, _) => decide (k = key)
  | (.admitObject k _ false _ _, _) => decide (k = key)
  | (.evict _, .victims victims) => decide (key ∈ victims.map Prod.fst)
  | _ => false

/-- The value of the latest call that supplied one for the key, if nothing withdrew it since; the
latest call comes first. -/
def lastSupplied (key : Key) : List (Call × Return) → Option Value
  | [] => none
  | event :: earlier =>
      match supplies key event with
      | some value => some value
      | none => if withdraws key event then none else lastSupplied key earlier

/-- A key that is cached is admitted as valid only with the value that it has. -/
def Meets (w : CoveredCacheWrapper) : Call → Prop
  | .admitObject key value true _ _ => ∀ v ∈ w.localCache.find key, v = value
  | _ => True

instance (w : CoveredCacheWrapper) (c : Call) : Decidable (Meets w c) :=
  match c with
  | .admitObject key value true _ _ =>
    inferInstanceAs (Decidable (∀ v ∈ w.localCache.find key, v = value))
  | .admitObject _ _ false _ _ => inferInstanceAs (Decidable True)
  | .get _ _ => inferInstanceAs (Decidable True)
  | .getP2p _ _ => inferInstanceAs (Decidable True)
  | .update _ _ _ => inferInstanceAs (Decidable True)
  | .remove _ _ => inferInstanceAs (Decidable True)
  | .updateIfInvalidForGetrsp _ _ _ => inferInstanceAs (Decidable True)
  | .evict _ => inferInstanceAs (Decidable True)
  | .invalidateKeyForLocalCachedObject _ => inferInstanceAs (Decidable True)

/-! ## The invariant -/

/-- Every valid object has the value that was supplied last. -/
def Sound (tr : List (Call × Return)) (w : CoveredCacheWrapper) : Prop :=
  ∀ key value, w.object key = some (value, true) → lastSupplied key tr = some value

section Step

variable {w w' : CoveredCacheWrapper} {tr : List (Call × Return)} {key : Key}
  {event : Call × Return}

/-- An event that neither supplies nor withdraws a value of the key. -/
theorem lastSupplied_skip (hsupplies : supplies key event = none)
    (hwithdraws : withdraws key event = false) :
    lastSupplied key (event :: tr) = lastSupplied key tr := by
  simp only [lastSupplied, hsupplies, hwithdraws, Bool.false_eq_true, if_false]

variable {value : Value}

theorem lastSupplied_of_supplies (h : supplies key event = some value) :
    lastSupplied key (event :: tr) = some value := by
  simp only [lastSupplied, h]

theorem Sound.skip (h : Sound tr w) (hobject : w'.object = w.object)
    (hsupplies : ∀ k, supplies k event = none) (hwithdraws : ∀ k, withdraws k event = false) :
    Sound (event :: tr) w' := by
  intro k value hvalue
  rw [hobject] at hvalue
  rw [lastSupplied_skip (hsupplies k) (hwithdraws k)]
  exact h k value hvalue

/-- A call about one key changes the object of this key only. -/
theorem Sound.change (h : Sound tr w) {o : Option (Value × Bool)}
    (hobject : w'.object = Function.update w.object key o)
    (hother : ∀ k, k ≠ key → supplies k event = none ∧ withdraws k event = false)
    (hkey : ∀ value, o = some (value, true) → supplies key event = some value) :
    Sound (event :: tr) w' := by
  intro k value hvalue
  rw [hobject, Function.update_apply] at hvalue
  by_cases hk : k = key
  · rw [if_pos hk] at hvalue
    rw [hk]
    exact lastSupplied_of_supplies (hkey value hvalue)
  · rw [if_neg hk] at hvalue
    obtain ⟨hsupplies, hwithdraws⟩ := hother k hk
    rw [lastSupplied_skip hsupplies hwithdraws]
    exact h k value hvalue

/-- An update of a cached key makes it valid only with the new value. -/
theorem Sound.updatedKey (h : Sound tr w) {isSuccessful : Bool}
    (hupdated : UpdatedKey w w' key value isSuccessful)
    (hother : ∀ k, k ≠ key → supplies k event = none ∧ withdraws k event = false)
    (hkey : supplies key event = some value) : Sound (event :: tr) w' := by
  obtain ⟨original, flag, -, hobject⟩ := hupdated.object
  apply h.change hobject hother
  intro v hv
  cases isSuccessful with
  | true =>
    cases hv
    exact hkey
  | false => cases hv

theorem Sound.get (h : Sound tr w) {rank : Nat} {result : Option Value}
    (hget : w.get key rank = some (w', result))
    (hsupplies : ∀ k, supplies k event = none) (hwithdraws : ∀ k, withdraws k event = false) :
    Sound (event :: tr) w' ∧ ∀ value, result = some value → lastSupplied key tr = some value := by
  obtain ⟨hsame, hresult⟩ := get_spec hget
  refine ⟨h.skip hsame.object hsupplies hwithdraws, fun value hvalue => ?_⟩
  apply h key value
  rw [hresult] at hvalue
  split at hvalue
  · next hvalid => rw [object, hvalue, hvalid, map_some]
  · cases hvalue

theorem Sound.update (h : Sound tr w) {rank : Nat} {isLocalCached : Bool}
    (hupdate : w.update key value rank = some (w', isLocalCached))
    (hother : ∀ k, k ≠ key → supplies k event = none) (hwithdraws : ∀ k, withdraws k event = false)
    (hkey : supplies key event = if isLocalCached then some value else none) :
    Sound (event :: tr) w' := by
  obtain ⟨rfl, -, hsame⟩ | ⟨rfl, isSuccessful, hupdated⟩ := update_spec hupdate
  · apply h.skip hsame.object _ hwithdraws
    intro k
    by_cases hk : k = key
    · rw [hk]
      exact hkey
    · exact hother k hk
  · exact h.updatedKey hupdated (fun k hk => ⟨hother k hk, hwithdraws k⟩) hkey

theorem Sound.updateIfInvalidForGetrsp (h : Sound tr w) {rank : Nat} {isInvalid : Bool}
    (hupdate : w.updateIfInvalidForGetrsp key value rank = some (w', isInvalid)) :
    Sound ((.updateIfInvalidForGetrsp key value rank, .flag isInvalid) :: tr) w' := by
  obtain ⟨rfl, hsame, -⟩ | ⟨rfl, -, isSuccessful, hupdated⟩ :=
    updateIfInvalidForGetrsp_spec hupdate
  · exact h.skip hsame.object (fun _ => rfl) fun _ => rfl
  · refine h.updatedKey hupdated ?_ (if_pos rfl)
    intro k hk
    exact ⟨if_neg (Ne.symm hk), rfl⟩

/-- An admission as valid leaves the key with the value that it passes. -/
theorem Sound.admitObject (h : Sound tr w) {isValid : Bool} {beaconEdgeidx rank : Nat}
    (hmeets : Meets w (.admitObject key value isValid beaconEdgeidx rank))
    (hadmitted : w.admitObject key value isValid beaconEdgeidx rank = some w') :
    Sound ((.admitObject key value isValid beaconEdgeidx rank, .void) :: tr) w' := by
  have hobject := (admitObject_spec hadmitted).object
  cases isValid with
  | true =>
    have hkept : (w.localCache.find key).getD value = value := by
      cases hfind : w.localCache.find key with
      | none => rfl
      | some original => exact hmeets original hfind
    rw [hkept] at hobject
    refine h.change hobject ?_ ?_
    · intro k hk
      exact ⟨if_neg (Ne.symm hk), rfl⟩
    · intro v hv
      cases hv
      exact if_pos rfl
  | false =>
    refine h.change hobject ?_ ?_
    · intro k hk
      exact ⟨rfl, decide_eq_false (Ne.symm hk)⟩
    · intro v hv
      cases hv

theorem Sound.invalidate (h : Sound tr w) (key : Key) :
    Sound ((.invalidateKeyForLocalCachedObject key, .void) :: tr)
      (w.invalidateKeyForLocalCachedObject key) := by
  refine h.change (object_invalidate w key) ?_ ?_
  · intro k hk
    exact ⟨rfl, decide_eq_false (Ne.symm hk)⟩
  · intro v hv
    obtain ⟨o, -, hpair⟩ := map_eq_some_iff.1 hv
    cases hpair

/-- After the evictions of some victims the other keys have their objects. -/
theorem object_evictVictims {keys : List Key} {victims : List (Key × Value)}
    (h : w.evictVictims keys = some (w', victims)) :
    ∀ k, w'.object k = if k ∈ victims.map Prod.fst then none else w.object k := by
  induction keys generalizing w victims with
  | nil =>
    cases h
    intro k
    exact (if_neg List.not_mem_nil).symm
  | cons key rest ih =>
    simp only [evictVictims, bind_eq_bind, bind_eq_some_iff, pure_def,
      some.injEq, Prod.mk.injEq] at h
    obtain ⟨result, hvictim, ⟨w₁, value⟩, hok, ⟨w₂, later⟩, hrest, rfl, rfl⟩ := h
    obtain ⟨_, _, rfl, hevicted⟩ | ⟨rfl, -⟩ | ⟨rfl, -⟩ := evictVictim_spec hvictim
    · cases hok
      intro k
      rw [ih hrest k, hevicted.object, Function.update_apply, List.map_cons]
      by_cases hk : k = key
      · rw [if_pos hk, ite_self, hk, if_pos List.mem_cons_self]
      · rw [if_neg hk]
        simp only [List.mem_cons, hk, false_or]
    · cases hok
    · cases hok

theorem Sound.evict (h : Sound tr w) {requiredSize : Nat} {victims : List (Key × Value)}
    (hevict : w.evict requiredSize = some (w', victims)) :
    Sound ((.evict requiredSize, .victims victims) :: tr) w' := by
  simp only [CoveredCacheWrapper.evict, bind_eq_bind, bind_eq_some_iff,
    pure_def, some.injEq, Prod.mk.injEq] at hevict
  obtain ⟨-, -, keys, -, ⟨w₁, victims'⟩, hvictims, rfl, rfl⟩ := hevict
  intro k value hvalue
  rw [object_eraseBeaconEdgeidxs, object_evictVictims hvictims k] at hvalue
  split at hvalue
  · cases hvalue
  · next hkept =>
    have hwithdraws : withdraws k (.evict requiredSize, .victims victims') = false :=
      decide_eq_false hkept
    rw [lastSupplied_skip rfl hwithdraws]
    exact h k value hvalue

/-- Every call keeps the objects sound, and a read returns what was supplied last. -/
theorem Sound.call (h : Sound tr w) {c : Call} {ret : Return} (hmeets : Meets w c)
    (hcall : w.call c = some (w', ret)) :
    Sound ((c, ret) :: tr) w' ∧ ∀ key value, c.readKey? = some key → ret = .hit (some value) →
      lastSupplied key tr = some value := by
  cases c with
  | get key rank =>
    obtain ⟨⟨_, result⟩, hget, hpair⟩ := map_eq_some_iff.1 hcall
    cases hpair
    obtain ⟨hsound, hread⟩ := @Sound.get _ _ _ _ (.get key rank, .hit result) h _ _ hget
      (fun _ => rfl) fun _ => rfl
    refine ⟨hsound, fun k value hk hvalue => ?_⟩
    cases hk
    exact hread value (Return.hit.inj hvalue)
  | getP2p key rank =>
    obtain ⟨⟨_, result⟩, hget, hpair⟩ := map_eq_some_iff.1 hcall
    cases hpair
    obtain ⟨hsound, hread⟩ := @Sound.get _ _ _ _ (.getP2p key rank, .hit result) h _ _ hget
      (fun _ => rfl) fun _ => rfl
    refine ⟨hsound, fun k value hk hvalue => ?_⟩
    cases hk
    exact hread value (Return.hit.inj hvalue)
  | update key value rank =>
    obtain ⟨⟨_, isLocalCached⟩, hupdate, hpair⟩ := map_eq_some_iff.1 hcall
    cases hpair
    refine ⟨?_, fun k value hk => by cases hk⟩
    cases isLocalCached with
    | true => exact h.update hupdate (fun k hk => if_neg (Ne.symm hk)) (fun _ => rfl) (if_pos rfl)
    | false => exact h.update hupdate (fun _ _ => rfl) (fun _ => rfl) rfl
  | remove key rank =>
    obtain ⟨⟨_, isLocalCached⟩, hupdate, hpair⟩ := map_eq_some_iff.1 hcall
    cases hpair
    refine ⟨?_, fun k value hk => by cases hk⟩
    cases isLocalCached with
    | true => exact h.update hupdate (fun k hk => if_neg (Ne.symm hk)) (fun _ => rfl) (if_pos rfl)
    | false => exact h.update hupdate (fun _ _ => rfl) (fun _ => rfl) rfl
  | updateIfInvalidForGetrsp key value rank =>
    obtain ⟨⟨_, isInvalid⟩, hupdate, hpair⟩ := map_eq_some_iff.1 hcall
    cases hpair
    exact ⟨h.updateIfInvalidForGetrsp hupdate, fun k value hk => by cases hk⟩
  | admitObject key value isValid beaconEdgeidx rank =>
    obtain ⟨_, hadmitted, hpair⟩ := map_eq_some_iff.1 hcall
    cases hpair
    exact ⟨h.admitObject hmeets hadmitted, fun k value hk => by cases hk⟩
  | evict requiredSize =>
    obtain ⟨⟨_, victims⟩, hevict, hpair⟩ := map_eq_some_iff.1 hcall
    cases hpair
    exact ⟨h.evict hevict, fun k value hk => by cases hk⟩
  | invalidateKeyForLocalCachedObject key =>
    cases hcall
    exact ⟨h.invalidate key, fun k value hk => by cases hk⟩

end Step

theorem sound_create (capacityBytes : Nat) : Sound [] (create capacityBytes) := by
  intro key value hvalue
  have hnone : (create capacityBytes).localCache.find key = none := AList.lookup_empty key
  rw [object, hnone] at hvalue
  cases hvalue

/-- In every run whose calls all meet the condition, a read that hits returns the value of the
latest call that supplied one for the key, and nothing withdrew it since. -/
theorem get_returns_lastSupplied {capacityBytes : Nat} {tr : List (Call × Return)}
    {w : CoveredCacheWrapper} (hrun : Runs call Meets (create capacityBytes) tr w) :
    ∀ later c value earlier key, tr = later ++ (c, Return.hit (some value)) :: earlier →
      c.readKey? = some key → lastSupplied key earlier = some value := by
  have hinv : Sound tr w ∧ ∀ later c value earlier key,
      tr = later ++ (c, Return.hit (some value)) :: earlier → c.readKey? = some key →
        lastSupplied key earlier = some value := by
    apply hrun.trace_invariant (P := fun tr w => Sound tr w ∧ ∀ later c value earlier key,
      tr = later ++ (c, Return.hit (some value)) :: earlier → c.readKey? = some key →
        lastSupplied key earlier = some value)
    · refine ⟨sound_create capacityBytes, fun later c value earlier key htr => ?_⟩
      cases later <;> cases htr
    · rintro tr w c w' ret ⟨hsound, hreads⟩ hmeets hcall
      obtain ⟨hsound', hread⟩ := hsound.call hmeets hcall
      refine ⟨hsound', fun later c' value earlier key htr hkey => ?_⟩
      -- the read is the call of this step or an earlier one
      cases later with
      | nil =>
        cases htr
        exact hread key value hkey rfl
      | cons event later =>
        cases htr
        exact hreads later c' value earlier key rfl hkey
  exact hinv.2

/-- A call that does not meet the condition makes a value valid that it did not pass. -/
theorem object_of_not_meets {w w' : CoveredCacheWrapper} {key : Key} {value : Value}
    {beaconEdgeidx rank : Nat} (hmeets : ¬ Meets w (.admitObject key value true beaconEdgeidx rank))
    (hadmitted : w.admitObject key value true beaconEdgeidx rank = some w') :
    ∃ v, v ≠ value ∧ w'.object key = some (v, true) := by
  obtain ⟨v, hv⟩ := not_forall.1 hmeets
  obtain ⟨hfind, hne⟩ := Classical.not_imp.1 hv
  refine ⟨v, hne, ?_⟩
  rw [(admitObject_spec hadmitted).object, Function.update_self, hfind, getD_some]

/-! ## Concrete runs -/

/-- Two values of different sizes. -/
def eightBytes : Value := .ofSize 8
def nineBytes : Value := .ofSize 9

/-- Whether a read of the key returns the value. -/
def reads (key : Key) (value : Value) (w : CoveredCacheWrapper) : Bool :=
  (w.get key 0).any fun r => decide (r.2 = some value)

theorem exists_read {key : Key} {value : Value} {w : CoveredCacheWrapper}
    (h : reads key value w = true) :
    ∃ w', w.call (.get key 0) = some (w', .hit (some value)) := by
  obtain ⟨⟨w', result⟩, hget, hresult⟩ := (any_eq_true ..).1 h
  have hvalue : result = some value := of_decide_eq_true hresult
  exact ⟨w', by rw [call, hget, hvalue]; rfl⟩

/-- An invalidated key is admitted again with a new value before it is evicted. The admission makes
the old value valid. -/
theorem get_returns_replaced_value :
    ¬ ∀ capacityBytes tr w, Runs call anyAction (create capacityBytes) tr w →
      ∀ later c value earlier key, tr = later ++ (c, Return.hit (some value)) :: earlier →
        c.readKey? = some key → lastSupplied key earlier = some value := by
  intro h
  have hexec : (exec call anyAction (create 100) [.admitObject ⟨[7]⟩ eightBytes true 0 0,
      .invalidateKeyForLocalCachedObject ⟨[7]⟩, .admitObject ⟨[7]⟩ nineBytes true 0 0]).any
        (reads ⟨[7]⟩ eightBytes) = true := by
    decide +kernel
  obtain ⟨tr, w, hrun, hcalls, hreads⟩ := exists_runs_of_any hexec
  obtain ⟨w', hget⟩ := exists_read hreads
  have hlast := h 100 _ w' (.cons hrun trivial hget) [] _ eightBytes tr ⟨[7]⟩ rfl rfl
  -- the latest call is the admission of the other value
  obtain ⟨⟨_, ret⟩, earlier, rfl, rfl, -⟩ := List.map_eq_cons_iff.1 hcalls
  have hnine : supplies ⟨[7]⟩ (.admitObject ⟨[7]⟩ nineBytes true 0 0, ret) = some nineBytes := rfl
  rw [lastSupplied_of_supplies hnine] at hlast
  revert hlast
  decide

/-- The value of an update is read back. -/
theorem get_returns_lastSupplied_updated :
    ∃ tr w, Runs call Meets (create 100)
      ((.get ⟨[7]⟩ 0, .hit (some nineBytes)) :: tr) w ∧
        lastSupplied ⟨[7]⟩ tr = some nineBytes := by
  have hexec : (exec call Meets (create 100) [.admitObject ⟨[7]⟩ eightBytes true 0 0,
      .invalidateKeyForLocalCachedObject ⟨[7]⟩, .update ⟨[7]⟩ nineBytes 0]).any
        (reads ⟨[7]⟩ nineBytes) = true := by
    decide +kernel
  obtain ⟨tr, w, hrun, -, hreads⟩ := exists_runs_of_any hexec
  obtain ⟨w', hget⟩ := exists_read hreads
  have hrun' := Runs.cons hrun (show Meets w (.get ⟨[7]⟩ 0) from trivial) hget
  exact ⟨tr, w', hrun', get_returns_lastSupplied hrun' [] _ nineBytes tr ⟨[7]⟩ rfl rfl⟩

end Covered.Cache
