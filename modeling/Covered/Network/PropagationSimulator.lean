import Covered.Common.Util
import Covered.Lib.Execution

/-!
# Simulated propagation delays

The threads of a node push the messages that they send into a ring buffer, each with the time for
which the propagation simulator is to sleep before it sends the message. The simulator pops the
messages one after the other, sleeps, and sends. A message is due when the latency that was
generated for it has passed since it was pushed.

The time to sleep is the time that has passed since the push before, but at most the latency of the
message. `Paced` says for which messages that is the right time, in terms of the times and latencies
of what was pushed before; `paced_of_constant` is that it always is if all latencies are equal, as
the source asks of its users. `sent_exactly_iff` is that the simulator sends all messages when they
are due, or right after the message before, iff all of them are paced.

Times are in nanoseconds; latencies and times to sleep are in microseconds.
-/

set_option autoImplicit false

namespace Covered.Network.PropagationSimulator

open Common Lib.Checked Lib.Execution List

/-- Nanoseconds of a microsecond. -/
def nanoseconds : Nat := 1000

/-! ## The buffer and its two ends -/

/-- A message that is pushed: when, whether its latency is skipped for the warmup, and the latency
that is generated for a round trip. -/
structure Push where
  timespec : Nat
  skipPropagationLatency : Bool
  propagationLatency : Nat
deriving DecidableEq, Repr

/-- Latency of one direction. -/
def Push.emissionLatencyUs (push : Push) : Nat := push.propagationLatency / 2

/-- When the message is due. -/
def Push.due (push : Push) : Nat :=
  push.timespec + if push.skipPropagationLatency then 0 else nanoseconds * push.emissionLatencyUs

/-- A message in the buffer. Beside the time to sleep it has what was known when it was pushed: the
time from which the passed time was counted, if any, and when all messages before are due. -/
structure PropagationItem where
  sleepUs : Nat
  push : Push
  reference : Option Nat
  dueBefore : Nat
deriving DecidableEq, Repr

/-- The size of the ring buffer, and whether messages go over a real network with its own delay. -/
structure Settings where
  bufferSize : Nat
  isRealnetLoad : Bool

/-- The parameter that the threads and the simulator share, the time of the last push, when all
messages that were pushed are due, and when the simulator sent the last message. -/
structure State where
  propagationItemBuffer : List PropagationItem
  isFirstItem : Bool
  prevTimespec : Nat
  lastPush : Nat
  latestDue : Nat
  sentAt : Nat
deriving DecidableEq, Repr

def initial : State := ⟨[], true, 0, 0, 0, 0⟩

/-- Whole microseconds between two times, as a 32-bit number; a conversion of a larger one is
undefined. -/
def getDeltaTimeUs (current previous : Nat) : Option Nat := do
  let deltaTime := (current - previous) / nanoseconds
  require (deltaTime < 2 ^ 32)
  return deltaTime

/-- The time to sleep, and the first-item flag and the time of the previous item afterwards. -/
def sleepTime (settings : Settings) (s : State) (push : Push) : Option (Nat × Bool × Nat) :=
  if push.skipPropagationLatency then some (0, s.isFirstItem, s.prevTimespec)
  else if settings.isRealnetLoad then some (0, s.isFirstItem, s.prevTimespec)
  else if s.isFirstItem then some (push.emissionLatencyUs, false, push.timespec)
  else do
    let deltaTime ← getDeltaTimeUs push.timespec s.prevTimespec
    let sleepUs := if deltaTime > push.emissionLatencyUs then push.emissionLatencyUs else deltaTime
    return (sleepUs, s.isFirstItem, push.timespec)

inductive Action
  | push (push : Push)
  | pop
deriving DecidableEq

inductive Output
  | pushed (isSuccessful : Bool)
  | idle
  | sent (item : PropagationItem) (previous time : Nat)
deriving DecidableEq

/-- The message is dropped if the buffer is full; one place of it stays empty. -/
def pushItem (settings : Settings) (s : State) (push : Push) : Option (State × Output) := do
  let (sleepUs, isFirstItem, prevTimespec) ← sleepTime settings s push
  require (sleepUs ≤ push.emissionLatencyUs)
  let item : PropagationItem :=
    ⟨sleepUs, push, if s.isFirstItem then none else some s.prevTimespec, s.latestDue⟩
  let s := { s with
    isFirstItem := isFirstItem
    prevTimespec := prevTimespec
    lastPush := push.timespec }
  if s.propagationItemBuffer.length + 1 < settings.bufferSize then
    return ({ s with
      propagationItemBuffer := s.propagationItemBuffer ++ [item]
      latestDue := max s.latestDue push.due }, .pushed true)
  else return (s, .pushed false)

/-- The simulator takes the next message as soon as it is there and the one before is sent, sleeps
and sends it. -/
def popItem (s : State) : State × Output :=
  match s.propagationItemBuffer with
  | [] => (s, .idle)
  | item :: rest =>
      let time := max item.push.timespec s.sentAt + nanoseconds * item.sleepUs
      ({ s with propagationItemBuffer := rest, sentAt := time }, .sent item s.sentAt time)

def step (settings : Settings) (s : State) : Action → Option (State × Output)
  | .push push => pushItem settings s push
  | .pop => some (popItem s)

/-- Pushes come in the order of their times and find a free place. -/
def Accepted (settings : Settings) (s : State) : Action → Prop
  | .push push => s.lastPush ≤ push.timespec ∧
      s.propagationItemBuffer.length + 1 < settings.bufferSize
  | .pop => True

instance (settings : Settings) (s : State) (a : Action) : Decidable (Accepted settings s a) :=
  match a with
  | .push _ => inferInstanceAs (Decidable (_ ∧ _))
  | .pop => inferInstanceAs (Decidable True)

/-! ## Messages that are paced -/

/-- The message is sent when it is due or right after the message before. -/
def SentExactly (item : PropagationItem) (previous time : Nat) : Prop :=
  item.push.skipPropagationLatency = false → time = max item.push.due previous

/-- The time to sleep is right. Over a real network there is none, so the message must not be due
later than those before. Else the first message is always right. For a later one, if those before
are due when it is pushed, its latency must have passed since the reference time; if not, the time
since the reference time is what is left after them until it is due, or there is nothing to wait
for. -/
def Paced (settings : Settings) (item : PropagationItem) : Prop :=
  item.push.skipPropagationLatency = false →
    if settings.isRealnetLoad then item.push.due ≤ max item.push.timespec item.dueBefore
    else ∀ reference, item.reference = some reference →
      let passed := (item.push.timespec - reference) / nanoseconds
      if item.dueBefore ≤ item.push.timespec then item.push.emissionLatencyUs ≤ passed
      else item.dueBefore + nanoseconds * passed = item.push.due ∨
        min passed item.push.emissionLatencyUs = 0 ∧ item.push.due ≤ item.dueBefore

/-- The time to sleep is the one that is stored with the message. -/
structure WellTimed (settings : Settings) (item : PropagationItem) : Prop where
  skipped : item.push.skipPropagationLatency = true → item.sleepUs = 0
  realnet : settings.isRealnetLoad = true → item.sleepUs = 0
  first : item.push.skipPropagationLatency = false → settings.isRealnetLoad = false →
    item.reference = none →
      item.sleepUs = item.push.emissionLatencyUs ∧ item.dueBefore ≤ item.push.timespec
  later : item.push.skipPropagationLatency = false → settings.isRealnetLoad = false →
    ∀ reference, item.reference = some reference →
      item.sleepUs = min ((item.push.timespec - reference) / nanoseconds)
        item.push.emissionLatencyUs

section Items

variable {settings : Settings} {item : PropagationItem}

theorem due_of_not_skipped (h : item.push.skipPropagationLatency = false) :
    item.push.due = item.push.timespec + nanoseconds * item.push.emissionLatencyUs := by
  rw [Push.due, h]
  rfl

theorem due_of_skipped (h : item.push.skipPropagationLatency = true) :
    item.push.due = item.push.timespec := by
  rw [Push.due, h]
  rfl

/-- A skipped message is sent at once after the one before. -/
theorem WellTimed.sent_of_skipped (h : WellTimed settings item)
    (hskip : item.push.skipPropagationLatency = true) (previous : Nat) :
    max item.push.timespec previous + nanoseconds * item.sleepUs = max item.push.due previous := by
  rw [h.skipped hskip, due_of_skipped hskip, Nat.mul_zero, Nat.add_zero]

/-- If the messages before are sent when the last of them is due, a message is sent right iff it is
paced. -/
theorem WellTimed.sentExactly_iff (h : WellTimed settings item) :
    SentExactly item item.dueBefore
        (max item.push.timespec item.dueBefore + nanoseconds * item.sleepUs) ↔
      Paced settings item := by
  refine imp_congr_right fun hskip => ?_
  rw [due_of_not_skipped hskip]
  by_cases hload : settings.isRealnetLoad = true
  · rw [if_pos hload, h.realnet hload]
    omega
  rw [if_neg hload]
  rw [Bool.not_eq_true] at hload
  cases hreference : item.reference with
  | none =>
    obtain ⟨hsleep, hbefore⟩ := h.first hskip hload hreference
    refine iff_of_true ?_ (fun _ h => by cases h)
    rw [hsleep]
    omega
  | some reference =>
    have hsleep := h.later hskip hload reference hreference
    simp only [Option.some.injEq, forall_eq']
    generalize (item.push.timespec - reference) / nanoseconds = passed at hsleep ⊢
    rw [hsleep]
    simp only [nanoseconds]
    split
    · omega
    · omega

end Items

/-! ## Runs -/

/-- Each message has the latest due time of those before it; `start` and `stop` are those before the
first message and after the last one. -/
def Chained : List PropagationItem → Nat → Nat → Prop
  | [], start, stop => start = stop
  | item :: rest, start, stop =>
      item.dueBefore = start ∧ Chained rest (max start item.push.due) stop

theorem Chained.append {items : List PropagationItem} {start stop : Nat}
    (h : Chained items start stop) (sleepUs : Nat) (push : Push) (reference : Option Nat) :
    Chained (items ++ [⟨sleepUs, push, reference, stop⟩]) start (max stop push.due) := by
  induction items generalizing start with
  | nil =>
    obtain rfl : start = stop := h
    exact ⟨rfl, rfl⟩
  | cons item rest ih => exact ⟨h.1, ih h.2⟩

abbrev Trace : Type := List (Action × Output)

/-- The messages that were pushed, the last one first. -/
def pushes (tr : Trace) : List Push :=
  tr.filterMap fun event => match event.1 with
    | .push push => some push
    | .pop => none

/-- The messages that were sent, each with the time of the one before and its own, the last one
first. -/
def sent (tr : Trace) : List (PropagationItem × Nat × Nat) :=
  tr.filterMap fun event => match event.2 with
    | .sent item previous time => some (item, previous, time)
    | _ => none

def AllSentExactly (tr : Trace) : Prop := ∀ e ∈ sent tr, SentExactly e.1 e.2.1 e.2.2

def AllPaced (settings : Settings) (tr : Trace) : Prop := ∀ e ∈ sent tr, Paced settings e.1

/-- The invariant. -/
structure Inv (settings : Settings) (tr : Trace) (s : State) : Prop where
  order : pushes tr = (s.propagationItemBuffer.map PropagationItem.push).reverse ++
    (sent tr).map fun e => e.1.push
  wellTimed : ∀ item ∈ s.propagationItemBuffer, WellTimed settings item
  first : settings.isRealnetLoad = false → s.isFirstItem = true → s.latestDue ≤ s.lastPush
  exactly_iff : AllSentExactly tr ↔ AllPaced settings tr
  chained : ∃ start, Chained s.propagationItemBuffer start s.latestDue ∧
    (AllPaced settings tr → s.sentAt = start)

section Runs

variable {settings : Settings} {s s' : State} {tr : Trace} {push : Push} {out : Output}

theorem inv_initial (settings : Settings) : Inv settings [] initial where
  order := rfl
  wellTimed := fun _ h => absurd h not_mem_nil
  first := fun _ _ => Nat.le_refl 0
  exactly_iff := iff_of_true (fun _ h => absurd h not_mem_nil)
    (fun _ h => absurd h not_mem_nil)
  chained := ⟨0, rfl, fun _ => rfl⟩

/-- What a push finds for the time to sleep. -/
theorem sleepTime_spec {sleepUs prevTimespec : Nat} {isFirstItem : Bool}
    (h : sleepTime settings s push = some (sleepUs, isFirstItem, prevTimespec))
    (hdue : settings.isRealnetLoad = false → s.isFirstItem = true → s.latestDue ≤ push.timespec) :
    WellTimed settings
        ⟨sleepUs, push, if s.isFirstItem then none else some s.prevTimespec, s.latestDue⟩ ∧
      (isFirstItem = true → s.isFirstItem = true ∧
        (push.skipPropagationLatency = true ∨ settings.isRealnetLoad = true)) := by
  rw [sleepTime] at h
  by_cases hskip : push.skipPropagationLatency = true
  · rw [if_pos hskip] at h
    cases h
    refine ⟨⟨fun _ => rfl, fun _ => rfl, ?_, ?_⟩, fun hfirst => ⟨hfirst, .inl hskip⟩⟩
    · exact fun hnot => absurd (hskip.symm.trans hnot) Bool.noConfusion
    · exact fun hnot => absurd (hskip.symm.trans hnot) Bool.noConfusion
  rw [if_neg hskip] at h
  by_cases hload : settings.isRealnetLoad = true
  · rw [if_pos hload] at h
    cases h
    refine ⟨⟨fun _ => rfl, fun _ => rfl, ?_, ?_⟩, fun hfirst => ⟨hfirst, .inr hload⟩⟩
    · exact fun _ hnot => absurd (hload.symm.trans hnot) Bool.noConfusion
    · exact fun _ hnot => absurd (hload.symm.trans hnot) Bool.noConfusion
  rw [if_neg hload] at h
  rw [Bool.not_eq_true] at hload
  by_cases hfirst : s.isFirstItem = true
  · rw [if_pos hfirst] at h
    cases h
    refine ⟨⟨fun h => absurd h hskip, fun h => ?_, fun _ _ _ => ⟨rfl, hdue hload hfirst⟩,
      fun _ _ reference h => ?_⟩, fun h => absurd h Bool.false_ne_true⟩
    · exact absurd (h.symm.trans hload) Bool.noConfusion
    · dsimp only at h
      rw [if_pos hfirst] at h
      cases h
  · rw [if_neg hfirst] at h
    simp only [getDeltaTimeUs, bind_eq_some_iff, require_eq_some_iff, pure_eq_some_iff,
      Prod.mk.injEq] at h
    obtain ⟨deltaTime, ⟨-, -, rfl⟩, rfl, rfl, -⟩ := h
    refine ⟨⟨fun h => absurd h hskip, fun h => ?_, fun _ _ h => ?_, fun _ _ reference h => ?_⟩,
      fun h => absurd h hfirst⟩
    · exact absurd (h.symm.trans hload) Bool.noConfusion
    · dsimp only at h
      rw [if_neg hfirst] at h
      cases h
    · dsimp only at h ⊢
      rw [if_neg hfirst, Option.some.injEq] at h
      subst h
      split
      · omega
      · omega

theorem inv_push (h : Inv settings tr s) (haccepted : Accepted settings s (.push push))
    (hstep : pushItem settings s push = some (s', out)) :
    Inv settings ((.push push, out) :: tr) s' := by
  obtain ⟨htime, hroom⟩ := haccepted
  simp only [pushItem, bind_eq_some_iff, require_eq_some_iff, Prod.exists] at hstep
  obtain ⟨sleepUs, isFirstItem, prevTimespec, hsleep, -, -, hstep⟩ := hstep
  rw [if_pos hroom] at hstep
  cases hstep
  obtain ⟨hwell, hfirst⟩ := sleepTime_spec hsleep fun hload hflag =>
    (h.first hload hflag).trans htime
  obtain ⟨start, hchained, hsent⟩ := h.chained
  constructor
  · have hpushes : pushes ((.push push, .pushed true) :: tr) = push :: pushes tr := rfl
    rw [hpushes, h.order, map_append, reverse_append]
    rfl
  · intro item hitem
    rcases mem_append.1 hitem with hitem | hitem
    · exact h.wellTimed item hitem
    · rw [mem_singleton.1 hitem]
      exact hwell
  · -- only skipped messages have been pushed
    intro hload hflag
    obtain ⟨hflag', hskip | hload'⟩ := hfirst hflag
    · have hdue : push.due = push.timespec := by rw [Push.due, hskip]; rfl
      have := h.first hload hflag'
      dsimp only
      omega
    · exact absurd (hload'.symm.trans hload) Bool.noConfusion
  · exact h.exactly_iff
  · exact ⟨start, hchained.append sleepUs push _, hsent⟩

theorem inv_pop (h : Inv settings tr s) (hstep : popItem s = (s', out)) :
    Inv settings ((.pop, out) :: tr) s' := by
  cases hbuffer : s.propagationItemBuffer with
  | nil =>
    rw [popItem, hbuffer] at hstep
    cases hstep
    exact ⟨h.order, h.wellTimed, h.first, h.exactly_iff, h.chained⟩
  | cons item rest =>
    rw [popItem, hbuffer] at hstep
    cases hstep
    obtain ⟨start, hchained, hstart⟩ := h.chained
    rw [hbuffer] at hchained
    obtain ⟨hbefore, hrest⟩ := hchained
    have hwell := h.wellTimed item (by rw [hbuffer]; exact mem_cons_self)
    let time := max item.push.timespec s.sentAt + nanoseconds * item.sleepUs
    have hsent : sent ((.pop, .sent item s.sentAt time) :: tr) =
        (item, s.sentAt, time) :: sent tr := rfl
    have hpaced : AllPaced settings ((.pop, .sent item s.sentAt time) :: tr) ↔
        Paced settings item ∧ AllPaced settings tr := by
      rw [AllPaced, hsent, forall_mem_cons]
      rfl
    have hexactly : AllSentExactly ((.pop, .sent item s.sentAt time) :: tr) ↔
        SentExactly item s.sentAt time ∧ AllSentExactly tr := by
      rw [AllSentExactly, hsent, forall_mem_cons]
      rfl
    -- while all messages are paced, the last one was sent when all before were due
    have hthis : AllPaced settings tr → (SentExactly item s.sentAt time ↔ Paced settings item) := by
      intro hall
      have hsentAt : s.sentAt = item.dueBefore := (hstart hall).trans hbefore.symm
      rw [← hwell.sentExactly_iff, ← hsentAt]
    constructor
    · have hpushes : pushes ((.pop, .sent item s.sentAt time) :: tr) = pushes tr := rfl
      rw [hpushes, h.order, hsent, hbuffer]
      simp
    · intro other hother
      exact h.wellTimed other (by rw [hbuffer]; exact mem_cons_of_mem item hother)
    · exact h.first
    · rw [hpaced, hexactly, h.exactly_iff]
      exact and_congr_left hthis
    · refine ⟨max start item.push.due, hrest, fun hall => ?_⟩
      obtain ⟨hitem, hall⟩ := hpaced.1 hall
      have htime : time = max item.push.due s.sentAt := by
        cases hskip : item.push.skipPropagationLatency with
        | true => exact hwell.sent_of_skipped hskip s.sentAt
        | false => exact (hthis hall).2 hitem hskip
      dsimp only
      rw [show max item.push.timespec s.sentAt + nanoseconds * item.sleepUs = time from rfl, htime,
        hstart hall, max_comm]

theorem inv_of_runs (h : Runs (step settings) (Accepted settings) initial tr s) :
    Inv settings tr s := by
  refine h.trace_invariant (inv_initial settings) ?_
  intro tr t a t' out hinv haccepted hstep
  cases a with
  | push push => exact inv_push hinv haccepted hstep
  | pop => exact inv_pop hinv (Option.some.inj hstep)

/-- After any pushes that find a place and any pops: messages are sent in the order in which they
were pushed, and all of them are sent when they are due, or right after the message before, iff all
of them are paced. -/
theorem sent_exactly_iff (h : Runs (step settings) (Accepted settings) initial tr s) :
    ((sent tr).reverse.map fun e => e.1.push) <+: (pushes tr).reverse ∧
      (AllSentExactly tr ↔ AllPaced settings tr) := by
  have hinv := inv_of_runs h
  refine ⟨⟨s.propagationItemBuffer.map PropagationItem.push, ?_⟩, hinv.exactly_iff⟩
  rw [hinv.order, List.reverse_append, List.reverse_reverse, ← List.map_reverse]

end Runs

/-! ## One latency -/

/-- Messages whose latency is not skipped have the given latency and are pushed at whole
microseconds. -/
def Constant (latencyUs : Nat) : Action → Prop
  | .push push => push.skipPropagationLatency = false →
      push.emissionLatencyUs = latencyUs ∧ nanoseconds ∣ push.timespec
  | .pop => True

instance (latencyUs : Nat) (a : Action) : Decidable (Constant latencyUs a) :=
  match a with
  | .push _ => inferInstanceAs (Decidable (_ → _))
  | .pop => inferInstanceAs (Decidable True)

/-- The messages are due by the last push, or when the latency has passed since the reference
time. -/
structure ConstantInv (settings : Settings) (latencyUs : Nat) (tr : Trace) (s : State) : Prop where
  first : s.isFirstItem = true → s.latestDue ≤ s.lastPush
  reference : s.isFirstItem = false → nanoseconds ∣ s.prevTimespec ∧ s.prevTimespec ≤ s.lastPush ∧
    s.prevTimespec + nanoseconds * latencyUs ≤ s.latestDue ∧
    s.latestDue ≤ max s.lastPush (s.prevTimespec + nanoseconds * latencyUs)
  queued : ∀ item ∈ s.propagationItemBuffer, Paced settings item
  sent : AllPaced settings tr

section Constant

variable {settings : Settings} {latencyUs : Nat} {s s' : State} {tr : Trace} {push : Push}
  {out : Output}

theorem ConstantInv.paced (h : ConstantInv settings latencyUs tr s)
    (hload : settings.isRealnetLoad = false) (htime : s.lastPush ≤ push.timespec)
    (hconstant : Constant latencyUs (.push push)) (sleepUs : Nat) :
    Paced settings
      ⟨sleepUs, push, if s.isFirstItem then none else some s.prevTimespec, s.latestDue⟩ := by
  intro hskip
  rw [hload, if_neg Bool.false_ne_true]
  intro reference hreference
  cases hfirst : s.isFirstItem with
  | true =>
    rw [hfirst] at hreference
    cases hreference
  | false =>
    rw [hfirst] at hreference
    obtain rfl : s.prevTimespec = reference := Option.some.inj hreference
    obtain ⟨hwhole, hbefore, hlower, hupper⟩ := h.reference hfirst
    obtain ⟨rfl, hwhole'⟩ := hconstant hskip
    have hpassed : nanoseconds * ((push.timespec - s.prevTimespec) / nanoseconds) =
        push.timespec - s.prevTimespec := Nat.mul_div_cancel' (Nat.dvd_sub hwhole' hwhole)
    have hdue := @due_of_not_skipped ⟨sleepUs, push, none, s.latestDue⟩ hskip
    dsimp only at hdue ⊢
    rw [hdue, hpassed]
    split
    · -- all is due, so the latency has passed since the reference time
      rw [Nat.le_div_iff_mul_le (by decide), Nat.mul_comm]
      omega
    · -- the last message is due when the latency has passed since the reference time
      left
      omega

theorem constantInv_push (h : ConstantInv settings latencyUs tr s)
    (hload : settings.isRealnetLoad = false) (haccepted : Accepted settings s (.push push))
    (hconstant : Constant latencyUs (.push push))
    (hstep : pushItem settings s push = some (s', out)) :
    ConstantInv settings latencyUs ((.push push, out) :: tr) s' := by
  obtain ⟨htime, hroom⟩ := haccepted
  simp only [pushItem, bind_eq_some_iff, require_eq_some_iff, Prod.exists] at hstep
  obtain ⟨sleepUs, isFirstItem, prevTimespec, hsleep, -, -, hstep⟩ := hstep
  rw [if_pos hroom] at hstep
  cases hstep
  have hqueued : ∀ item ∈ s.propagationItemBuffer ++
      [⟨sleepUs, push, if s.isFirstItem then none else some s.prevTimespec, s.latestDue⟩],
      Paced settings item := by
    intro item hitem
    rcases mem_append.1 hitem with hitem | hitem
    · exact h.queued item hitem
    · rw [mem_singleton.1 hitem]
      exact h.paced hload htime hconstant sleepUs
  cases hskip : push.skipPropagationLatency with
  | true =>
    have hdue : push.due = push.timespec := by rw [Push.due, hskip]; rfl
    rw [sleepTime, if_pos hskip] at hsleep
    cases hsleep
    refine ⟨fun hfirst => ?_, fun hfirst => ?_, hqueued, h.sent⟩
    · have := h.first hfirst
      dsimp only
      omega
    · obtain ⟨hwhole, hbefore, hlower, hupper⟩ := h.reference hfirst
      dsimp only
      refine ⟨hwhole, by omega, by omega, by omega⟩
  | false =>
    obtain ⟨rfl, hwhole⟩ := hconstant hskip
    have hdue : push.due = push.timespec + nanoseconds * push.emissionLatencyUs := by
      rw [Push.due, hskip]
      rfl
    -- the push is the new reference time
    have hstate : isFirstItem = false ∧ prevTimespec = push.timespec := by
      rw [sleepTime, hskip, hload, if_neg Bool.false_ne_true, if_neg Bool.false_ne_true] at hsleep
      split at hsleep
      · cases hsleep
        exact ⟨rfl, rfl⟩
      · next hfirst =>
        simp only [bind_eq_some_iff, pure_eq_some_iff, Prod.mk.injEq] at hsleep
        obtain ⟨-, -, -, rfl, rfl⟩ := hsleep
        exact ⟨Bool.not_eq_true _ ▸ hfirst, rfl⟩
    obtain ⟨rfl, rfl⟩ := hstate
    have hbound : s.latestDue ≤ push.timespec + nanoseconds * push.emissionLatencyUs := by
      cases hfirst : s.isFirstItem with
      | true =>
        have := h.first hfirst
        omega
      | false =>
        obtain ⟨-, hbefore, -, hupper⟩ := h.reference hfirst
        omega
    refine ⟨fun hfirst => absurd hfirst Bool.false_ne_true, fun _ => ?_, hqueued, h.sent⟩
    dsimp only
    rw [hdue]
    exact ⟨hwhole, Nat.le_refl _, by omega, by omega⟩

theorem constantInv_pop (h : ConstantInv settings latencyUs tr s)
    (hstep : popItem s = (s', out)) : ConstantInv settings latencyUs ((.pop, out) :: tr) s' := by
  cases hbuffer : s.propagationItemBuffer with
  | nil =>
    rw [popItem, hbuffer] at hstep
    cases hstep
    exact ⟨h.first, h.reference, h.queued, h.sent⟩
  | cons item rest =>
    rw [popItem, hbuffer] at hstep
    cases hstep
    have hqueued := h.queued
    rw [hbuffer, forall_mem_cons] at hqueued
    refine ⟨h.first, h.reference, hqueued.2, ?_⟩
    exact forall_mem_cons.2 ⟨hqueued.1, h.sent⟩

/-- If all latencies are equal and the times are whole microseconds, all messages are paced,
whatever messages with skipped latency are among them. -/
theorem paced_of_constant (hload : settings.isRealnetLoad = false)
    (h : Runs (step settings) (fun s a => Accepted settings s a ∧ Constant latencyUs a) initial
      tr s) : AllPaced settings tr := by
  have hinv : ConstantInv settings latencyUs tr s := by
    refine h.trace_invariant (P := ConstantInv settings latencyUs) ?_ ?_
    · exact ⟨fun _ => Nat.le_refl 0, fun hfirst => absurd hfirst.symm Bool.false_ne_true,
        fun _ h => absurd h not_mem_nil, fun _ h => absurd h not_mem_nil⟩
    · rintro tr t a t' out hinv ⟨haccepted, hconstant⟩ hstep
      cases a with
      | push push => exact constantInv_push hinv hload haccepted hconstant hstep
      | pop => exact constantInv_pop hinv (Option.some.inj hstep)
  exact hinv.sent

end Constant

/-- The settings of the runs below. -/
def smallSettings : Settings := ⟨8, false⟩

/-- Two messages of ten microseconds with a skipped one between them: the messages are sent after
ten, ten and fourteen microseconds. -/
theorem sent_exactly_iff_constant :
    ∃ tr s, Runs (step smallSettings) (Accepted smallSettings) initial tr s ∧
      (sent tr).map (fun e => e.2.2) = [14000, 10000, 10000] ∧ AllSentExactly tr := by
  have hpush1 := Runs.cons (C := fun s a => Accepted smallSettings s a ∧ Constant 10 a) .nil
    (by decide)
    (rfl : step smallSettings initial (.push ⟨0, false, 20⟩) = some (_, _))
  have hpush2 := hpush1.cons (a := .push ⟨2000, true, 20⟩) (by decide) rfl
  have hpush3 := hpush2.cons (a := .push ⟨4000, false, 20⟩) (by decide) rfl
  have hpop1 := hpush3.cons (a := .pop) (by decide) rfl
  have hpop2 := hpop1.cons (a := .pop) (by decide) rfl
  have hpop3 := hpop2.cons (a := .pop) (by decide) rfl
  have hrun := hpop3.mono fun _ _ h => h.1
  exact ⟨_, _, hrun, by decide, (sent_exactly_iff hrun).2.2 (paced_of_constant rfl hpop3)⟩

/-- The second of two messages is pushed one microsecond after the first and has twice the latency:
it is sent one microsecond after the first, ten microseconds before it is due. -/
theorem longer_latency_early :
    ∃ tr s, Runs (step smallSettings) (Accepted smallSettings) initial tr s ∧
      (sent tr).map (fun e => (e.1.push.due, e.2.2)) = [(21000, 11000), (10000, 10000)] ∧
      ¬ AllSentExactly tr := by
  have hpush1 := Runs.cons (C := Accepted smallSettings) .nil (by decide)
    (rfl : step smallSettings initial (.push ⟨0, false, 20⟩) = some (_, _))
  have hpush2 := hpush1.cons (a := .push ⟨1000, false, 40⟩) (by decide) rfl
  have hpop1 := hpush2.cons (a := .pop) (by decide) rfl
  have hpop2 := hpop1.cons (a := .pop) (by decide) rfl
  refine ⟨_, _, hpop2, by decide, fun hall => ?_⟩
  have hlast := hall _ List.mem_cons_self rfl
  exact absurd hlast (by decide)

end Covered.Network.PropagationSimulator
