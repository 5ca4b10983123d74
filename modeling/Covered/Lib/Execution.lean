import Mathlib.Data.List.Basic

/-!
# Runs of a partial step function with outputs

A machine is a step function `step : σ → α → Option (σ × β)`: from a state and an action to the
next state and an output, or to an abort. `Runs step C s tr t` says that from `s` the machine
reaches `t` by actions that each meet the condition `C` in the state before them; `tr` lists the
actions with their outputs, the latest first. With the condition `fun _ _ => True` these are all
runs of the machine.

`Runs.invariant` is the induction rule for safety: what holds at the start and is kept by every
step that meets the condition holds in every state reached. `Runs.trace_invariant` is the same
rule for a relation between the state and the trace that led to it.
-/

set_option autoImplicit false

namespace Covered.Lib.Execution

universe u v w

variable {σ : Type u} {α : Type v} {β : Type w}

/-- Runs of `step` whose actions each meet `C` in the state before them; latest action first. -/
inductive Runs (step : σ → α → Option (σ × β)) (C : σ → α → Prop) (s : σ) :
    List (α × β) → σ → Prop
  | nil : Runs step C s [] s
  | cons {tr : List (α × β)} {t t' : σ} {a : α} {b : β} :
      Runs step C s tr t → C t a → step t a = some (t', b) → Runs step C s ((a, b) :: tr) t'

/-- No condition on the actions of a run. -/
def anyAction : σ → α → Prop := fun _ _ => True

instance (s : σ) (a : α) : Decidable (anyAction s a) := inferInstanceAs (Decidable True)

/-- The machine run on a list of actions that each have to meet `C`, the first action first. -/
def exec (step : σ → α → Option (σ × β)) (C : σ → α → Prop) [∀ s a, Decidable (C s a)] :
    σ → List α → Option σ
  | s, [] => some s
  | s, a :: rest =>
      if C s a then
        match step s a with
        | none => none
        | some (t, _) => exec step C t rest
      else none

variable {step : σ → α → Option (σ × β)} {C : σ → α → Prop}

variable {s t : σ} {tr : List (α × β)}

theorem Runs.mono {C' : σ → α → Prop} (hC : ∀ s a, C s a → C' s a) (h : Runs step C s tr t) :
    Runs step C' s tr t := by
  induction h with
  | nil => exact .nil
  | cons _ hc hs ih => exact .cons ih (hC _ _ hc) hs

/-- Safety: a property of the start that every step keeps holds in every state reached. -/
theorem Runs.invariant {P : σ → Prop} (h : Runs step C s tr t) (h0 : P s)
    (hstep : ∀ {t a t' b}, P t → C t a → step t a = some (t', b) → P t') : P t := by
  induction h with
  | nil => exact h0
  | cons _ hc hs ih => exact hstep ih hc hs

/-- Safety of a relation between the trace so far and the state. -/
theorem Runs.trace_invariant {P : List (α × β) → σ → Prop} (h : Runs step C s tr t) (h0 : P [] s)
    (hstep : ∀ {tr t a t' b}, P tr t → C t a → step t a = some (t', b) →
      P ((a, b) :: tr) t') : P tr t := by
  induction h with
  | nil => exact h0
  | cons _ hc hs ih => exact hstep ih hc hs

theorem Runs.trans {u : σ} {tr' : List (α × β)} (h : Runs step C s tr t)
    (h' : Runs step C t tr' u) :
    Runs step C s (tr' ++ tr) u := by
  induction h' with
  | nil => exact h
  | cons _ hc hs ih => exact .cons ih hc hs

variable {as : List α}

/-- A computed run is a run of the same actions. -/
theorem exists_runs_of_exec [∀ s a, Decidable (C s a)] (h : exec step C s as = some t) :
    ∃ tr, Runs step C s tr t ∧ tr.map Prod.fst = as.reverse := by
  induction as generalizing s with
  | nil =>
    simp only [exec, Option.some.injEq] at h
    subst h
    exact ⟨[], .nil, rfl⟩
  | cons a rest ih =>
    simp only [exec] at h
    split at h
    · next hC =>
      cases hs : step s a with
      | none => simp [hs] at h
      | some p =>
        obtain ⟨t', b⟩ := p
        simp only [hs] at h
        obtain ⟨tr, htr, hmap⟩ := ih h
        have h1 : Runs step C s [(a, b)] t' := .cons .nil hC hs
        exact ⟨tr ++ [(a, b)], h1.trans htr, by simp [hmap]⟩
    · cases h

/-- A computed run that ends in a state with `p` is such a run. -/
theorem exists_runs_of_any [∀ s a, Decidable (C s a)] {p : σ → Bool}
    (h : (exec step C s as).any p = true) :
    ∃ tr t, Runs step C s tr t ∧ tr.map Prod.fst = as.reverse ∧ p t = true := by
  cases hexec : exec step C s as with
  | none => simp [hexec] at h
  | some t =>
    obtain ⟨tr, htr, hmap⟩ := exists_runs_of_exec hexec
    exact ⟨tr, t, htr, hmap, by simpa [hexec] using h⟩

/-- A computed run with a last step for which `p` holds of the states around it. -/
theorem exists_last_step_of_any [∀ s a, Decidable (C s a)] {p : σ → σ → Bool} {a : α}
    (h : (exec step C s as).any (fun t => decide (C t a) && (step t a).any fun r => p t r.1) =
      true) :
    ∃ tr t t' b, Runs step C s tr t ∧ C t a ∧ step t a = some (t', b) ∧ p t t' = true := by
  obtain ⟨tr, t, htr, -, ht⟩ := exists_runs_of_any h
  rw [Bool.and_eq_true, decide_eq_true_eq] at ht
  cases hs : step t a with
  | none => simp [hs] at ht
  | some r => exact ⟨tr, t, r.1, r.2, htr, ht.1, hs, by simpa [hs] using ht.2⟩

end Covered.Lib.Execution
