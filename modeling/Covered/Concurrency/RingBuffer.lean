import Mathlib.Data.UInt
import Covered.Lib.BoundedQueue
import Covered.Lib.CircularIndex
import Covered.Lib.Simulation

/-!
# Ring buffers

A ring buffer holds its elements between two positions of a vector: `push` writes at the head,
`pop` reads at the tail, and both move on modulo the size of the buffer. The buffer is empty if the
two are equal and full if the head is right before the tail, so one position stays free.

The blocking variant differs in `pop`, which waits for an element or for the finish condition of its
user and takes nothing if the latter holds. All operations of it run under one mutex, as those of
the other variant do for several providers, so an operation is one step here; a `pop` that waits has
not returned.

`Represents` relates a ring buffer to the queue of its elements, and `refines_queue` is the theorem:
both variants are bounded queues, for one element less than they have positions.
-/

set_option autoImplicit false

namespace Covered.Concurrency

open Covered.Lib
open Covered.Lib.Checked
open Covered.Lib.CircularIndex (distance slot)
open Covered.Lib.Execution
open Covered.Lib.Simulation
open BoundedQueue (Operation Result)

universe u

/-- A vector of elements, and where the next one is written and read. -/
structure RingBuffer (α : Type u) where
  head : UInt32
  tail : UInt32
  bufferSize : UInt32
  defaultElement : α
  ringBuffer : Vector α bufferSize.toNat
  head_lt : head.toNat < bufferSize.toNat
  tail_lt : tail.toNat < bufferSize.toNat

namespace RingBuffer

variable {α : Type u}

/-- An empty buffer of a positive size. -/
def create (defaultElement : α) (bufferSize : UInt32) : Option (RingBuffer α) :=
  if h : 0 < bufferSize.toNat then
    some { head := 0
           tail := 0
           bufferSize := bufferSize
           defaultElement := defaultElement
           ringBuffer := Vector.replicate bufferSize.toNat defaultElement
           head_lt := h
           tail_lt := h }
  else none

/-- The position after another one. -/
def next (b : RingBuffer α) (position : UInt32) : UInt32 := (position + 1) % b.bufferSize

theorem toNat_next {b : RingBuffer α} {position : UInt32}
    (h : position.toNat < b.bufferSize.toNat) :
    (b.next position).toNat = (position.toNat + 1) % b.bufferSize.toNat := by
  have hlimit := b.bufferSize.toNat_lt
  have hone : (1 : UInt32).toNat = 1 := rfl
  rw [next, UInt32.toNat_mod, UInt32.toNat_add, hone, Nat.mod_eq_of_lt (a := position.toNat + 1)]
  omega

theorem next_lt (b : RingBuffer α) {position : UInt32}
    (h : position.toNat < b.bufferSize.toNat) :
    (b.next position).toNat < b.bufferSize.toNat := by
  rw [toNat_next h]
  exact Nat.mod_lt _ (by omega)

/-- Write an element unless the buffer is full. -/
def push (b : RingBuffer α) (element : α) : RingBuffer α × Bool :=
  if b.next b.head = b.tail then (b, false)
  else
    ({ b with
        ringBuffer := b.ringBuffer.set b.head.toNat element b.head_lt
        head := b.next b.head
        head_lt := b.next_lt b.head_lt }, true)

/-- The oldest element. -/
def front (b : RingBuffer α) : α := b.ringBuffer.get ⟨b.tail.toNat, b.tail_lt⟩

/-- The buffer without its oldest element. -/
def release (b : RingBuffer α) : RingBuffer α :=
  { b with
    ringBuffer := b.ringBuffer.set b.tail.toNat b.defaultElement b.tail_lt
    tail := b.next b.tail
    tail_lt := b.next_lt b.tail_lt }

/-- Read the oldest element unless the buffer is empty. -/
def pop (b : RingBuffer α) : RingBuffer α × Option α :=
  if b.tail = b.head then (b, none) else (b.release, some b.front)

/-- The number of elements; the sum is one of 32-bit numbers. -/
def getElementCnt (b : RingBuffer α) : Option UInt32 := do
  let size := if b.head ≥ b.tail then b.head - b.tail else b.head + b.bufferSize - b.tail
  require (size ≥ 0 ∧ size < b.bufferSize)
  return size

/-- Take out all elements: the loop has as many rounds as there are positions, at most. -/
def releaseLoop : Nat → RingBuffer α → List α → Option (RingBuffer α × List α)
  | 0, b, remainingElements => if b.tail = b.head then some (b, remainingElements) else none
  | fuel + 1, b, remainingElements =>
      if b.tail = b.head then some (b, remainingElements)
      else releaseLoop fuel b.release (remainingElements ++ [b.front])

def getAllToRelease (b : RingBuffer α) : Option (RingBuffer α × List α) :=
  releaseLoop b.bufferSize.toNat b []

/-- One operation, with what it returns. -/
def step (b : RingBuffer α) : Operation α → Option (RingBuffer α × Result α)
  | .push element => some ((b.push element).1, .pushed (b.push element).2)
  | .pop => some (b.pop.1, .popped b.pop.2)
  | .length => b.getElementCnt.map fun n => (b, .length n.toNat)
  | .drain => b.getAllToRelease.map fun r => (r.1, .drained r.2)

/-! ## The queue of the elements -/

/-- The elements are at the positions from the tail up to before the head. -/
structure Represents (b : RingBuffer α) (queue : List α) : Prop where
  length : queue.length = distance b.bufferSize.toNat b.tail.toNat b.head.toNat
  elements : ∀ k, k < queue.length →
    b.ringBuffer[slot b.bufferSize.toNat b.tail.toNat k]? = queue[k]?

/-- The most elements that a buffer can hold. -/
def capacity (b : RingBuffer α) : Nat := b.bufferSize.toNat - 1

variable {b : RingBuffer α} {queue : List α}

theorem represents_create {defaultElement : α} {bufferSize : UInt32}
    (h : create defaultElement bufferSize = some b) :
    b.Represents [] ∧ b.bufferSize = bufferSize := by
  rw [create] at h
  split at h
  · cases h
    exact ⟨⟨rfl, fun k hk => absurd hk (Nat.not_lt_zero k)⟩, rfl⟩
  · cases h

namespace Represents

theorem length_lt (h : b.Represents queue) : queue.length < b.bufferSize.toNat := by
  rw [h.length]
  exact CircularIndex.distance_lt b.tail_lt b.head_lt

theorem slot_length (h : b.Represents queue) :
    slot b.bufferSize.toNat b.tail.toNat queue.length = b.head.toNat := by
  rw [h.length]
  exact CircularIndex.slot_distance b.tail_lt b.head_lt

/-- The head is right before the tail if the queue has the capacity. -/
theorem full_iff (h : b.Represents queue) :
    b.next b.head = b.tail ↔ ¬ queue.length < b.capacity := by
  have hlt := h.length_lt
  have hfull := CircularIndex.next_slot_eq_tail_iff b.tail_lt hlt
  rw [h.slot_length] at hfull
  rw [← UInt32.toNat_inj, toNat_next b.head_lt, hfull, capacity]
  omega

/-- The head is the tail if the queue is empty. -/
theorem empty_iff (h : b.Represents queue) : b.tail = b.head ↔ queue = [] := by
  have hempty := CircularIndex.distance_eq_zero_iff b.head.toNat b.tail_lt
  rw [← UInt32.toNat_inj, ← hempty, ← h.length, List.length_eq_zero_iff]

theorem push (h : b.Represents queue) (element : α) :
    (b.push element).1.Represents
        (if queue.length < b.capacity then queue ++ [element] else queue) ∧
      (b.push element).2 = decide (queue.length < b.capacity) := by
  rw [RingBuffer.push]
  by_cases hfull : b.next b.head = b.tail
  · have hlength := h.full_iff.1 hfull
    rw [if_pos hfull, if_neg hlength, decide_eq_false hlength]
    exact ⟨h, rfl⟩
  · have hlength : queue.length < b.capacity := not_not.1 fun hc => hfull (h.full_iff.2 hc)
    have hslot := h.slot_length
    rw [if_neg hfull, if_pos hlength, decide_eq_true hlength]
    refine ⟨⟨?_, ?_⟩, rfl⟩
    · dsimp only
      have hk : queue.length + 1 < b.bufferSize.toNat := by
        rw [capacity] at hlength
        omega
      have hnext : slot b.bufferSize.toNat b.tail.toNat (queue.length + 1) =
          (b.next b.head).toNat := by
        rw [toNat_next b.head_lt, ← hslot, CircularIndex.next_slot]
      rw [List.length_append, List.length_singleton]
      exact CircularIndex.eq_distance b.tail_lt hk hnext
    · intro k hk
      dsimp only
      rw [List.length_append, List.length_singleton] at hk
      rw [Vector.getElem?_set]
      by_cases hlast : k = queue.length
      · subst hlast
        rw [hslot, if_pos rfl, List.getElem?_concat_length]
      · -- the new element is at a position of its own
        have hold : k < queue.length := by omega
        have hne : b.head.toNat ≠ slot b.bufferSize.toNat b.tail.toNat k := by
          intro heq
          have hlt := h.length_lt
          exact hlast (CircularIndex.slot_inj (by omega) hlt (heq.symm.trans hslot.symm))
        rw [if_neg hne, h.elements k hold, List.getElem?_append_left hold]

/-- The oldest element and the others. -/
theorem release {element : α} {rest : List α} (h : b.Represents (element :: rest)) :
    b.front = element ∧ b.release.Represents rest := by
  have hlt := h.length_lt
  have hslot := h.slot_length
  rw [List.length_cons] at hlt hslot
  refine ⟨?_, ⟨?_, ?_⟩⟩
  · have hfirst := h.elements 0 (Nat.zero_lt_succ _)
    rw [CircularIndex.slot_zero b.tail_lt, Vector.getElem?_eq_getElem b.tail_lt,
      List.getElem?_cons_zero] at hfirst
    exact Option.some.inj hfirst
  · have hlast : rest.length < b.bufferSize.toNat := by omega
    refine CircularIndex.eq_distance (b.next_lt b.tail_lt) hlast ?_
    dsimp only [RingBuffer.release]
    rw [toNat_next b.tail_lt, CircularIndex.slot_next]
    exact hslot
  · intro k hk
    show (b.ringBuffer.set b.tail.toNat b.defaultElement b.tail_lt)[
      slot b.bufferSize.toNat (b.next b.tail).toNat k]? = rest[k]?
    have hnext := h.elements (k + 1) (by rw [List.length_cons]; omega)
    rw [toNat_next b.tail_lt, CircularIndex.slot_next, Vector.getElem?_set]
    -- the position that is cleared is not one of the others
    have hne : b.tail.toNat ≠ slot b.bufferSize.toNat b.tail.toNat (k + 1) := by
      intro heq
      have hzero := CircularIndex.slot_inj (i := k + 1) (j := 0) (by omega) (by omega)
        (heq.symm.trans (CircularIndex.slot_zero b.tail_lt).symm)
      omega
    rw [if_neg hne, hnext, List.getElem?_cons_succ]

theorem pop (h : b.Represents queue) :
    b.pop.1.Represents queue.tail ∧ b.pop.2 = queue.head? := by
  rw [RingBuffer.pop]
  cases queue with
  | nil =>
    rw [if_pos (h.empty_iff.2 rfl)]
    exact ⟨h, rfl⟩
  | cons element rest =>
    have hne : ¬ b.tail = b.head := fun heq => List.cons_ne_nil _ _ (h.empty_iff.1 heq)
    obtain ⟨hfront, hrest⟩ := h.release
    rw [if_neg hne, hfront]
    exact ⟨hrest, rfl⟩

/-- The count is the length of the queue, whether the sum wraps around or not. -/
theorem getElementCnt (h : b.Represents queue) :
    ∃ n, b.getElementCnt = some n ∧ n.toNat = queue.length := by
  have hlt := h.length_lt
  have hlimit := b.bufferSize.toNat_lt
  have hhead := b.head_lt
  have htail := b.tail_lt
  have hlength := h.length
  have hsize : (if b.head ≥ b.tail then b.head - b.tail
      else b.head + b.bufferSize - b.tail).toNat = queue.length := by
    rw [hlength, distance]
    by_cases hle : b.tail.toNat ≤ b.head.toNat
    · rw [if_pos (show b.head ≥ b.tail from UInt32.le_iff_toNat_le.2 hle), if_pos hle,
        UInt32.toNat_sub_of_le _ _ (UInt32.le_iff_toNat_le.2 hle)]
    · rw [if_neg (fun hc => hle (UInt32.le_iff_toNat_le.1 hc)), if_neg hle, UInt32.toNat_sub,
        UInt32.toNat_add]
      omega
  refine ⟨_, ?_, hsize⟩
  rw [RingBuffer.getElementCnt]
  simp only [Option.bind_eq_bind, Option.pure_def]
  rw [require_bind_of]
  exact ⟨UInt32.le_iff_toNat_le.2 (Nat.zero_le _), UInt32.lt_iff_toNat_lt.2 (hsize ▸ hlt)⟩

/-- The loop takes out the elements in their order and ends. -/
theorem releaseLoop {fuel : Nat} (h : b.Represents queue) (hfuel : queue.length ≤ fuel)
    (remainingElements : List α) : ∃ b', b'.Represents ([] : List α) ∧
      b'.bufferSize = b.bufferSize ∧
      releaseLoop fuel b remainingElements = some (b', remainingElements ++ queue) := by
  induction fuel generalizing b queue remainingElements with
  | zero =>
    obtain rfl : queue = [] := List.eq_nil_of_length_eq_zero (by omega)
    refine ⟨b, h, rfl, ?_⟩
    rw [RingBuffer.releaseLoop, if_pos (h.empty_iff.2 rfl), List.append_nil]
  | succ fuel ih =>
    rw [RingBuffer.releaseLoop]
    cases queue with
    | nil =>
      refine ⟨b, h, rfl, ?_⟩
      rw [if_pos (h.empty_iff.2 rfl), List.append_nil]
    | cons element rest =>
      have hne : ¬ b.tail = b.head := fun heq => List.cons_ne_nil _ _ (h.empty_iff.1 heq)
      obtain ⟨hfront, hrest⟩ := h.release
      rw [List.length_cons] at hfuel
      obtain ⟨b', hempty, hsize, hloop⟩ := ih hrest (by omega) (remainingElements ++ [element])
      refine ⟨b', hempty, hsize, ?_⟩
      rw [if_neg hne, hfront, hloop, List.append_assoc, List.singleton_append]

/-- What is related after an operation. -/
def Matches (bufferSize : UInt32) (b : RingBuffer α) (queue : List α) : Prop :=
  b.bufferSize = bufferSize ∧ b.Represents queue

/-- An operation of the buffer is one of the queue. -/
theorem step_simulated {bufferSize : UInt32} (h : Matches bufferSize b queue) (a : Operation α) :
    Option.Rel (RelOutput (Matches bufferSize)) (b.step a)
      (BoundedQueue.step (bufferSize.toNat - 1) queue a) := by
  obtain ⟨rfl, h⟩ := h
  cases a with
  | push element =>
    obtain ⟨hafter, hsuccessful⟩ := h.push element
    have hsize : (b.push element).1.bufferSize = b.bufferSize := by
      rw [RingBuffer.push]
      split
      · rfl
      · rfl
    rw [capacity] at hafter hsuccessful
    rw [RingBuffer.step, hsuccessful, BoundedQueue.step, BoundedQueue.apply]
    by_cases hlength : queue.length < b.bufferSize.toNat - 1
    · rw [if_pos hlength] at hafter ⊢
      rw [decide_eq_true hlength]
      exact .some ⟨⟨hsize, hafter⟩, rfl⟩
    · rw [if_neg hlength] at hafter ⊢
      rw [decide_eq_false hlength]
      exact .some ⟨⟨hsize, hafter⟩, rfl⟩
  | pop =>
    obtain ⟨hafter, hfront⟩ := h.pop
    have hsize : b.pop.1.bufferSize = b.bufferSize := by
      rw [RingBuffer.pop]
      split
      · rfl
      · rfl
    rw [RingBuffer.step, hfront]
    exact .some ⟨⟨hsize, hafter⟩, rfl⟩
  | length =>
    obtain ⟨n, hn, hlength⟩ := h.getElementCnt
    rw [RingBuffer.step, hn, Option.map_some, hlength]
    exact .some ⟨⟨rfl, h⟩, rfl⟩
  | drain =>
    obtain ⟨b', hempty, hsize, hloop⟩ := h.releaseLoop h.length_lt.le []
    rw [RingBuffer.step, getAllToRelease, hloop, Option.map_some]
    exact .some ⟨⟨hsize, hempty⟩, rfl⟩

/-- No operation aborts. -/
theorem exists_runs {bufferSize : UInt32} (h : Matches bufferSize b queue)
    (operations : List (Operation α)) : ∃ tr t, Runs RingBuffer.step anyAction b tr t ∧
      tr.map Prod.fst = operations.reverse := by
  induction operations generalizing b queue with
  | nil => exact ⟨[], b, .nil, rfl⟩
  | cons a rest ih =>
    obtain ⟨⟨b', out⟩, hstep, hafter, -⟩ := exists_of_rel_right (step_simulated h a) rfl
    obtain ⟨tr, t, hrun, hmap⟩ := ih hafter
    have hfirst : Runs RingBuffer.step anyAction b [(a, out)] b' := .cons .nil trivial hstep
    exact ⟨tr ++ [(a, out)], t, hfirst.trans hrun, by simp [hmap]⟩

end Represents

end RingBuffer

/-! ## The blocking variant -/

/-- The same buffer, with a `pop` that waits. -/
abbrev BlockingRingBuffer (α : Type u) := RingBuffer α

namespace BlockingRingBuffer

variable {α : Type u}

/-- A `pop` that has returned, unless it still waits. The condition is what the finish condition of
the user gave when it was checked last, false if there is none. -/
def pop (b : BlockingRingBuffer α) (withFinishCondition : Bool) :
    Option (BlockingRingBuffer α × Option α) :=
  let withRingBufferCondition := decide (b.tail ≠ b.head)
  if (withFinishCondition || withRingBufferCondition) = false then none
  else if withFinishCondition = true then some (b, none)
  else do
    require (withRingBufferCondition = true)
    require (b.tail ≠ b.head)
    return (b.release, some b.front)

/-- One operation that returns; the other operations are those of the polling variant. -/
def step (b : BlockingRingBuffer α) (a : Operation α × Bool) :
    Option (BlockingRingBuffer α × Result α) :=
  match a with
  | (.pop, withFinishCondition) => (b.pop withFinishCondition).map fun r => (r.1, .popped r.2)
  | (a, _) => RingBuffer.step b a

open RingBuffer.Represents (Matches)

/-- An operation of the buffer is one of a queue that waits. -/
theorem step_simulated {b : BlockingRingBuffer α} {queue : List α} {bufferSize : UInt32}
    (h : Matches bufferSize b queue) (a : Operation α × Bool) :
    Option.Rel (RelOutput (Matches bufferSize)) (step b a)
      (BoundedQueue.waitingStep (bufferSize.toNat - 1) queue a) := by
  obtain ⟨a, withFinishCondition⟩ := a
  cases a with
  | push element => exact RingBuffer.Represents.step_simulated h (.push element)
  | length => exact RingBuffer.Represents.step_simulated h .length
  | drain => exact RingBuffer.Represents.step_simulated h .drain
  | pop =>
    obtain ⟨rfl, h⟩ := h
    cases withFinishCondition with
    | true => exact .some ⟨⟨rfl, h⟩, rfl⟩
    | false =>
      cases queue with
      | nil =>
        have hpop : pop b false = none := by
          simp [pop, h.empty_iff.2 rfl]
        rw [step, hpop]
        exact .none
      | cons element rest =>
        have hne : ¬ b.tail = b.head := fun heq => List.cons_ne_nil _ _ (h.empty_iff.1 heq)
        obtain ⟨hfront, hrest⟩ := h.release
        have hpop : pop b false = some (RingBuffer.release b, some element) := by
          simp [pop, hne, hfront, require_bind_of]
        rw [step, hpop]
        exact .some ⟨⟨rfl, hrest⟩, rfl⟩

end BlockingRingBuffer

/-! ## Runs -/

open BoundedQueue (accepted taken) in
/-- Every sequence of operations on a new ring buffer runs, and is one of the queue with one element
less than the buffer has positions: the same operations return the same. What was pushed is what was
popped or released followed by what is held. The same holds of the operations of a blocking ring
buffer that return, and an operation returns iff it does on the queue. A position that is increased,
and below `2 ^ 31` a position and the size, sum up to a 32-bit number. -/
theorem refines_queue {α : Type u} (defaultElement : α) {bufferSize : UInt32}
    (hpos : 0 < bufferSize.toNat) : ∃ b, RingBuffer.create defaultElement bufferSize = some b ∧
      (∀ operations : List (Operation α), ∃ tr t queue, Runs RingBuffer.step anyAction b tr t ∧
        tr.map Prod.fst = operations.reverse ∧
        Runs (BoundedQueue.step (bufferSize.toNat - 1)) anyAction [] tr queue ∧
        t.Represents queue ∧
        tr.reverse.flatMap accepted = tr.reverse.flatMap taken ++ queue) ∧
      (∀ tr t, Runs BlockingRingBuffer.step anyAction b tr t → ∃ queue,
        Runs (BoundedQueue.waitingStep (bufferSize.toNat - 1)) anyAction [] tr queue ∧
        t.Represents queue ∧
        (tr.reverse.flatMap fun e => accepted (e.1.1, e.2)) =
          (tr.reverse.flatMap fun e => taken (e.1.1, e.2)) ++ queue ∧
        ∀ a, (BlockingRingBuffer.step t a).isSome =
          (BoundedQueue.waitingStep (bufferSize.toNat - 1) queue a).isSome) ∧
      ∀ t : RingBuffer α, t.head.toNat + 1 < 2 ^ 32 ∧ t.tail.toNat + 1 < 2 ^ 32 ∧
        (t.bufferSize.toNat < 2 ^ 31 → t.head.toNat + t.bufferSize.toNat < 2 ^ 32) := by
  obtain ⟨b, hb⟩ : ∃ b, RingBuffer.create defaultElement bufferSize = some b := ⟨_, dif_pos hpos⟩
  obtain ⟨hrep, hsize⟩ := RingBuffer.represents_create hb
  have hmatches : RingBuffer.Represents.Matches bufferSize b [] := ⟨hsize, hrep⟩
  refine ⟨b, hb, fun operations => ?_, fun tr t hrun => ?_, fun t => ?_⟩
  · obtain ⟨tr, t, hrun, hmap⟩ := RingBuffer.Represents.exists_runs hmatches operations
    obtain ⟨queue, hqueue, hafter⟩ := runs_simulated
      (fun _ _ a h => RingBuffer.Represents.step_simulated h a) (fun _ _ _ _ _ => trivial) hrun
      hmatches
    exact ⟨tr, t, queue, hrun, hmap, hqueue, hafter.2, BoundedQueue.conserved hqueue⟩
  · obtain ⟨queue, hqueue, hafter⟩ := runs_simulated
      (fun _ _ a h => BlockingRingBuffer.step_simulated h a) (fun _ _ _ _ _ => trivial) hrun
      hmatches
    exact ⟨queue, hqueue, hafter.2, BoundedQueue.conserved_waiting hqueue,
      fun a => isSome_of_rel (BlockingRingBuffer.step_simulated hafter a)⟩
  · have hhead := t.head_lt
    have htail := t.tail_lt
    have hlimit := t.bufferSize.toNat_lt
    omega

/-- A buffer with three positions. -/
theorem refines_queue_three : ∃ b, RingBuffer.create (0 : Nat) 3 = some b ∧
    ∀ operations : List (Operation Nat), ∃ tr t queue, Runs RingBuffer.step anyAction b tr t ∧
      tr.map Prod.fst = operations.reverse ∧
      Runs (BoundedQueue.step 2) anyAction [] tr queue ∧ t.Represents queue := by
  obtain ⟨b, hb, hruns, -⟩ := refines_queue (0 : Nat) (show 0 < (3 : UInt32).toNat by decide)
  refine ⟨b, hb, fun operations => ?_⟩
  obtain ⟨tr, t, queue, hrun, hmap, hqueue, hrep, -⟩ := hruns operations
  exact ⟨tr, t, queue, hrun, hmap, hqueue, hrep⟩

end Covered.Concurrency
