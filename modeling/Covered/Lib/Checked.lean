import Mathlib.Data.Option.Basic

/-!
# Checked computations

A computation that may abort returns an `Option`: `none` stands for a failed assertion or for an
exit of the process, and no state is reached after it. `require p` is the assertion of `p`.

The rules below take a computation that did not abort apart, one assertion or one call at a time
(`bind_eq_some_iff`, `pure_eq_some_iff`, `require_eq_some_iff`), so that a proof never unfolds the
monad. `foldlM_invariant`, `foldlM_isSome` and `mapM_eq_some_map` are the rules for a loop over a
list, `whileLoop_spec` is the rule for a loop with a condition.
-/

set_option autoImplicit false

namespace Covered.Lib.Checked

open Option

universe u v

variable {α : Type v}

section Sequences

variable {β γ : Type u}

/-- A sequence does not abort iff neither of its parts does. -/
theorem bind_eq_some_iff {x : Option β} {f : β → Option γ} {c : γ} :
    x >>= f = some c ↔ ∃ b, x = some b ∧ f b = some c :=
  Option.bind_eq_some_iff

theorem pure_eq_some_iff {b c : β} : (pure b : Option β) = some c ↔ b = c :=
  some_inj

theorem some_bind (b : β) (f : β → Option γ) : some b >>= f = f b := rfl

end Sequences

/-- Assertion of a decidable condition. -/
def require (p : Prop) [Decidable p] : Option PUnit.{u + 1} :=
  if p then some PUnit.unit else none

variable {p : Prop}

@[simp] theorem require_eq_some_iff (p : Prop) [Decidable p] (x : PUnit.{u + 1}) :
    require p = some x ↔ p := by
  by_cases hp : p <;> simp [require, hp]

theorem require_of [Decidable p] (hp : p) : require.{u} p = some PUnit.unit := by
  simp [require, hp]

theorem require_of_not [Decidable p] (hp : ¬ p) : require.{u} p = none := by
  simp [require, hp]

variable {β : Type u}

/-- An assertion followed by a computation does not abort iff the condition holds and the
computation does not abort. -/
@[simp] theorem require_bind_eq_some_iff (p : Prop) [Decidable p]
    (f : PUnit.{u + 1} → Option α) (b : α) :
    (require p).bind f = some b ↔ p ∧ f PUnit.unit = some b := by
  by_cases hp : p <;> simp [require, hp]

theorem require_bind_of [Decidable p] (hp : p) (f : PUnit.{u + 1} → Option α) :
    (require p).bind f = f PUnit.unit := by
  simp [require, hp]

/-! The same in the notation of a sequence. -/

theorem require_bind_iff [Decidable p] {f : PUnit.{u + 1} → Option β} {b : β} :
    require p >>= f = some b ↔ p ∧ f PUnit.unit = some b :=
  require_bind_eq_some_iff p f b

theorem require_bind [Decidable p] (hp : p) (f : PUnit.{u + 1} → Option β) :
    require p >>= f = f PUnit.unit :=
  require_bind_of hp f

section Images

universe w x y

variable {β : Type w} {γ : Type x} {δ : Type y} {f : γ → δ}

/-- A computation on the image of a result gives the image of what the computation on the result
itself gives. -/
theorem bind_map_eq {o : Option α} {o' : Option β} {g : α → β} {k : α → Option γ}
    {k' : β → Option δ} (ho : o' = o.map g) (hk : ∀ a, o = some a → k' (g a) = (k a).map f) :
    o'.bind k' = (o.bind k).map f := by
  subst ho
  cases o with
  | none => rfl
  | some a => exact hk a rfl

theorem bind_map_same {o : Option α} {k : α → Option γ} {k' : α → Option δ}
    (hk : ∀ a, o = some a → k' a = (k a).map f) : o.bind k' = (o.bind k).map f :=
  bind_map_eq map_id_apply.symm hk

theorem require_bind_map_eq [Decidable p] {k : PUnit.{u + 1} → Option γ}
    {k' : PUnit.{u + 1} → Option δ} (hk : p → k' PUnit.unit = (k PUnit.unit).map f) :
    (require p).bind k' = ((require p).bind k).map f := by
  by_cases hp : p
  · rw [require_bind_of hp, require_bind_of hp]
    exact hk hp
  · rw [require_of_not hp, bind_none, bind_none, map_none]

end Images

section Fold

variable {σ : Type u} {f : σ → α → Option σ} {P : σ → Prop} {l : List α} {s t : σ}

/-- What each step of a fold that did not abort keeps, the fold keeps. -/
theorem foldlM_invariant (hstep : ∀ s a t, a ∈ l → P s → f s a = some t → P t) (hs : P s)
    (h : l.foldlM f s = some t) : P t := by
  induction l generalizing s with
  | nil =>
    cases h
    exact hs
  | cons a rest ih =>
    rw [List.foldlM_cons, bind_eq_bind] at h
    obtain ⟨u, hu, h⟩ := bind_eq_some_iff.1 h
    exact ih (fun s b t hb => hstep s b t (List.mem_cons_of_mem a hb))
      (hstep s a u List.mem_cons_self hs hu) h

/-- A fold does not abort if no step does. -/
theorem foldlM_isSome (hstep : ∀ s a, a ∈ l → P s → ∃ t, f s a = some t ∧ P t) (hs : P s) :
    ∃ t, l.foldlM f s = some t ∧ P t := by
  induction l generalizing s with
  | nil => exact ⟨s, rfl, hs⟩
  | cons a rest ih =>
    obtain ⟨u, hu, hPu⟩ := hstep s a List.mem_cons_self hs
    obtain ⟨t, ht, hPt⟩ := ih (fun s b hb => hstep s b (List.mem_cons_of_mem a hb)) hPu
    exact ⟨t, by rw [List.foldlM_cons, hu]; exact ht, hPt⟩

end Fold

/-- A list is mapped if no element aborts. -/
theorem mapM_eq_some_map {f : α → Option β} {g : α → β} {l : List α}
    (h : ∀ a ∈ l, f a = some (g a)) : l.mapM f = some (l.map g) := by
  induction l with
  | nil => rfl
  | cons a rest ih =>
    rw [List.mapM_cons, h a List.mem_cons_self, ih fun b hb => h b (List.mem_cons_of_mem a hb)]
    rfl

section While

variable {σ : Type u}

/-- `while (c s) s = f s` with at most `fuel` passes; a loop that is not over by then aborts. -/
def whileLoop (c : σ → Bool) (f : σ → Option σ) : Nat → σ → Option σ
  | 0, s => if c s then none else some s
  | fuel + 1, s => if c s then (f s).bind (whileLoop c f fuel) else some s

variable {c : σ → Bool} {f : σ → Option σ} {P : σ → Prop} {s t : σ} {fuel : Nat}

/-- What every pass that does not abort keeps, a loop that ends keeps. -/
theorem whileLoop_invariant (hstep : ∀ s t, P s → c s = true → f s = some t → P t) (hs : P s)
    (h : whileLoop c f fuel s = some t) : P t ∧ c t = false := by
  induction fuel generalizing s with
  | zero =>
    rw [whileLoop] at h
    split at h
    · cases h
    · next hc =>
      cases h
      exact ⟨hs, Bool.eq_false_iff.2 hc⟩
  | succ fuel ih =>
    rw [whileLoop] at h
    split at h
    · next hc =>
      obtain ⟨u, hu, hrest⟩ := bind_eq_some_iff.1 h
      exact ih (hstep s u hs hc hu) hrest
    · next hc =>
      cases h
      exact ⟨hs, Bool.eq_false_iff.2 hc⟩

/-- A pass that keeps an invariant and decreases a measure: the loop ends within as many passes as
the measure says, with the invariant and without the condition. -/
theorem whileLoop_spec (m : σ → Nat)
    (hstep : ∀ s, P s → c s = true → ∃ t, f s = some t ∧ P t ∧ m t < m s) (hs : P s)
    (hfuel : m s ≤ fuel) : ∃ t, whileLoop c f fuel s = some t ∧ P t ∧ c t = false := by
  induction fuel generalizing s with
  | zero =>
    cases hc : c s with
    | false => exact ⟨s, by simp [whileLoop, hc], hs, hc⟩
    | true =>
      -- a further pass would make the measure negative
      obtain ⟨t, -, -, hlt⟩ := hstep s hs hc
      omega
  | succ fuel ih =>
    cases hc : c s with
    | false => exact ⟨s, by simp [whileLoop, hc], hs, hc⟩
    | true =>
      obtain ⟨t, ht, hPt, hlt⟩ := hstep s hs hc
      obtain ⟨u, hu, hPu, hcu⟩ := ih hPt (by omega)
      exact ⟨u, by simp [whileLoop, hc, ht, hu], hPu, hcu⟩

/-- The state after a number of passes, if the condition holds before and after each of them. -/
def passes (c : σ → Bool) (f : σ → Option σ) : Nat → σ → Option σ
  | 0, s => if c s then some s else none
  | n + 1, s => if c s then (f s).bind (passes c f n) else none

/-- A loop that comes to a pass that aborts does not end. -/
theorem whileLoop_eq_none {n : Nat} (h : passes c f n s = some t) (habort : f t = none)
    (fuel : Nat) : whileLoop c f fuel s = none := by
  induction n generalizing s fuel with
  | zero =>
    rw [passes] at h
    split at h
    · next hc =>
      cases h
      cases fuel with
      | zero => rw [whileLoop, if_pos hc]
      | succ fuel => rw [whileLoop, if_pos hc, habort, bind_none]
    · cases h
  | succ n ih =>
    rw [passes] at h
    split at h
    · next hc =>
      obtain ⟨u, hu, hrest⟩ := bind_eq_some_iff.1 h
      cases fuel with
      | zero => rw [whileLoop, if_pos hc]
      | succ fuel => rw [whileLoop, if_pos hc, hu, bind_some, ih hrest]
    · cases h

end While

end Covered.Lib.Checked
