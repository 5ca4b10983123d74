import Covered.Lib.Execution

/-!
# Bounded queues

The abstract first-in first-out queue of a given capacity, as a machine that returns what each
operation returns. `conserved` is what such a queue is for: what went in is what came out followed
by what it holds, in the same order.
-/

set_option autoImplicit false

namespace Covered.Lib.BoundedQueue

open Lib.Execution List

universe u

variable {α : Type u}

inductive Operation (α : Type u) where
  | push (element : α)
  | pop
  | length
  | drain

/-- What an operation returns. -/
inductive Result (α : Type u) where
  | pushed (successful : Bool)
  | popped (element : Option α)
  | length (n : Nat)
  | drained (elements : List α)
deriving DecidableEq

/-- One operation on the elements, the oldest one first. -/
def apply (capacity : Nat) (queue : List α) : Operation α → List α × Result α
  | .push element =>
      if queue.length < capacity then (queue ++ [element], .pushed true)
      else (queue, .pushed false)
  | .pop => (queue.tail, .popped queue.head?)
  | .length => (queue, .length queue.length)
  | .drain => ([], .drained queue)

def step (capacity : Nat) (queue : List α) (a : Operation α) : Option (List α × Result α) :=
  some (apply capacity queue a)

/-- One operation of a queue whose `pop` waits for an element or for a finish condition, which holds
or does not hold when the operation returns. -/
def waitingStep (capacity : Nat) (queue : List α) (a : Operation α × Bool) :
    Option (List α × Result α) :=
  match a with
  | (.pop, true) => some (queue, .popped none)
  | (.pop, false) => if queue.isEmpty then none else some (apply capacity queue .pop)
  | (a, _) => some (apply capacity queue a)

/-- The elements that an operation brings in. -/
def accepted : Operation α × Result α → List α
  | (.push element, .pushed true) => [element]
  | _ => []

/-- The elements that an operation takes out. -/
def taken : Operation α × Result α → List α
  | (.pop, .popped element) => element.toList
  | (.drain, .drained elements) => elements
  | _ => []

theorem accepted_append (capacity : Nat) (queue : List α) (a : Operation α) :
    queue ++ accepted (a, (apply capacity queue a).2) =
      taken (a, (apply capacity queue a).2) ++ (apply capacity queue a).1 := by
  cases a with
  | push element =>
    rw [apply]
    split
    · rfl
    · exact append_nil queue
  | pop =>
    cases queue with
    | nil => rfl
    | cons element rest => exact append_nil _
  | length => exact append_nil queue
  | drain => rfl

variable {capacity : Nat} {queue : List α}

/-- What one operation of a waiting queue does: nothing, or what it does without waiting. -/
theorem waitingStep_cases {queue' : List α} {a : Operation α × Bool} {r : Result α}
    (h : waitingStep capacity queue a = some (queue', r)) :
    (a = (.pop, true) ∧ queue' = queue ∧ r = .popped none) ∨
      (queue' = (apply capacity queue a.1).1 ∧ r = (apply capacity queue a.1).2) := by
  obtain ⟨op, finished⟩ := a
  cases op with
  | pop =>
    cases finished with
    | true =>
      cases h
      exact .inl ⟨rfl, rfl, rfl⟩
    | false =>
      simp only [waitingStep] at h
      split at h
      · cases h
      · cases h
        exact .inr ⟨rfl, rfl⟩
  | push element =>
    have heq := Option.some.inj h
    exact .inr ⟨(congrArg Prod.fst heq).symm, (congrArg Prod.snd heq).symm⟩
  | length =>
    cases h
    exact .inr ⟨rfl, rfl⟩
  | drain =>
    cases h
    exact .inr ⟨rfl, rfl⟩

/-- What went in is what came out followed by what is held, each element once. -/
theorem conserved {tr : List (Operation α × Result α)}
    (h : Runs (step capacity) anyAction [] tr queue) :
    tr.reverse.flatMap accepted = tr.reverse.flatMap taken ++ queue := by
  induction h with
  | nil => rfl
  | @cons tr before _ a _ _ _ hstep ih =>
    simp only [step, Option.some.injEq, Prod.ext_iff] at hstep
    obtain ⟨rfl, rfl⟩ := hstep
    rw [reverse_cons, flatMap_append, flatMap_append, flatMap_singleton,
      flatMap_singleton, ih, append_assoc, accepted_append, append_assoc]

theorem conserved_waiting {tr : List ((Operation α × Bool) × Result α)}
    (h : Runs (waitingStep capacity) anyAction [] tr queue) :
    (tr.reverse.flatMap fun e => accepted (e.1.1, e.2)) =
      (tr.reverse.flatMap fun e => taken (e.1.1, e.2)) ++ queue := by
  induction h with
  | nil => rfl
  | @cons tr before _ a _ _ _ hstep ih =>
    rw [reverse_cons, flatMap_append, flatMap_append, flatMap_singleton,
      flatMap_singleton, ih, append_assoc]
    rcases waitingStep_cases hstep with ⟨rfl, rfl, rfl⟩ | ⟨rfl, rfl⟩
    · rw [append_assoc]
      exact congrArg _ (append_nil _)
    · rw [accepted_append, append_assoc]

end Covered.Lib.BoundedQueue
