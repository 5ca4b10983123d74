import Covered.Lib.Checked
import Covered.Lib.Execution

/-!
# Simulation of partial computations

Two computations that may abort agree up to a relation if both abort or both return related values
(`Option.Rel`). The rules here compose such agreements along a sequence of calls, so that a
concrete function is compared with its abstract counterpart one call at a time, and lift the
agreement of two step functions to their runs (`runs_simulated`).
-/

set_option autoImplicit false

namespace Covered.Lib.Simulation

open Lib.Checked Lib.Execution

universe u v w x y

variable {α : Type u} {β : Type v} {γ : Type w} {δ : Type x}
variable {R : α → β → Prop} {S : γ → δ → Prop} {p : Option α} {q : Option β}

theorem rel_bind {f : α → Option γ} {g : β → Option δ} (h : Option.Rel R p q)
    (hf : ∀ a b, R a b → Option.Rel S (f a) (g b)) : Option.Rel S (p.bind f) (q.bind g) := by
  cases h with
  | some hab => exact hf _ _ hab
  | none => exact .none

/-- A common first call. -/
theorem rel_bind_same {f : α → Option γ} {g : α → Option δ}
    (hf : ∀ a, p = some a → Option.Rel S (f a) (g a)) : Option.Rel S (p.bind f) (p.bind g) := by
  cases p with
  | some a => exact hf a rfl
  | none => exact .none

theorem rel_require_bind {P Q : Prop} [Decidable P] [Decidable Q] {f : PUnit.{y + 1} → Option γ}
    {g : PUnit.{y + 1} → Option δ} (h : P ↔ Q)
    (hf : P → Option.Rel S (f PUnit.unit) (g PUnit.unit)) :
    Option.Rel S ((require P).bind f) ((require Q).bind g) := by
  by_cases hP : P
  · rw [require_of hP, require_of (h.1 hP)]
    exact hf hP
  · rw [require_of_not hP, require_of_not fun hQ => hP (h.2 hQ)]
    exact .none

section Related

variable (h : Option.Rel R p q)
include h

theorem exists_of_rel {a : α} (hp : p = some a) : ∃ b, q = some b ∧ R a b := by
  subst hp
  cases h with
  | some hab => exact ⟨_, rfl, hab⟩

theorem exists_of_rel_right {b : β} (hq : q = some b) : ∃ a, p = some a ∧ R a b := by
  subst hq
  cases h with
  | some hab => exact ⟨_, rfl, hab⟩

theorem isSome_of_rel : p.isSome = q.isSome := by
  cases h with
  | some _ => rfl
  | none => rfl

theorem rel_flip : Option.Rel (fun b a => R a b) q p := by
  cases h with
  | some hab => exact .some hab
  | none => exact .none

/-- Two computations that agree with a third one agree up to what they have in common. -/
theorem rel_join {p' : Option α} (h' : Option.Rel R p' q) :
    Option.Rel (fun a a' => ∃ b, R a b ∧ R a' b) p p' := by
  cases h with
  | some hab =>
    cases h' with
    | some hab' => exact .some ⟨_, hab, hab'⟩
  | none =>
    cases h' with
    | none => exact .none

theorem rel_map {f : α → γ} {g : β → δ}
    (hf : ∀ a b, R a b → S (f a) (g b)) : Option.Rel S (p.map f) (q.map g) := by
  cases h with
  | some hab => exact .some (hf _ _ hab)
  | none => exact .none

theorem rel_mono {R' : α → β → Prop} (hR : ∀ a b, R a b → R' a b) : Option.Rel R' p q := by
  cases h with
  | some hab => exact .some (hR _ _ hab)
  | none => exact .none

end Related

section Runs

variable {σ : Type u} {τ : Type v} {A : Type w} {B : Type x} {R : σ → τ → Prop}
variable {step : σ → A → Option (σ × B)} {step' : τ → A → Option (τ × B)}

/-- Related states and equal outputs. -/
def RelOutput (R : σ → τ → Prop) (r : σ × B) (r' : τ × B) : Prop := R r.1 r'.1 ∧ r.2 = r'.2

/-- Both return the same beside their states. -/
theorem rel_map_output {p : Option σ} {q : Option τ} (h : Option.Rel R p q) (b : B) :
    Option.Rel (RelOutput R) (p.map (·, b)) (q.map (·, b)) :=
  rel_map h fun _ _ hab => ⟨hab, rfl⟩

theorem rel_output_map {B' : Type y} {p : Option (σ × B)} {q : Option (τ × B)}
    (h : Option.Rel (RelOutput R) p q) (f : B → B') :
    Option.Rel (RelOutput R) (p.map fun r => (r.1, f r.2)) (q.map fun r => (r.1, f r.2)) :=
  rel_map h fun _ _ hr => ⟨hr.1, congrArg f hr.2⟩

/-- A run of the concrete machine is, action by action, a run of the abstract one, and the states
reached are related. -/
theorem runs_simulated {C : σ → A → Prop} {C' : τ → A → Prop}
    (hstep : ∀ s t a, R s t → Option.Rel (RelOutput R) (step s a) (step' t a))
    (hcond : ∀ s t a, R s t → C s a → C' t a) {s s' : σ} {t : τ} {tr : List (A × B)}
    (hrun : Runs step C s tr s') (h : R s t) : ∃ t', Runs step' C' t tr t' ∧ R s' t' := by
  induction hrun with
  | nil => exact ⟨t, .nil, h⟩
  | cons _ hc hs ih =>
    obtain ⟨u, hu, hRu⟩ := ih
    obtain ⟨⟨u', b⟩, hstep', hR', rfl⟩ := exists_of_rel (hstep _ u _ hRu) hs
    exact ⟨u', .cons hu (hcond _ _ _ hRu hc) hstep', hR'⟩

end Runs

end Covered.Lib.Simulation
