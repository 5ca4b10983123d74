import Covered.Lib.Checked
import Covered.Lib.Execution
import Covered.Lib.KeyedList

/-!
# Requests to many targets with timeout and resend

Four functions of an edge ask several targets at once and wait for all of them. They are one loop
with different parts (`ParallelRequest`): a round sends a request to every target that has not
acknowledged yet, handles the current edge in place, and receives as many responses as it still
expects. A timeout starts a new round. A response with another message seqnum is stale: the loop
receives again without resending. `parallelEvictDirectory_` asks its targets in batches that share
one message seqnum; the other functions have a single batch.

`Loop` is the state of one call between two statements that may wait. `ParallelCall` adds the
network: copies of the request in flight to their targets and responses in flight to the caller. A
target answers each copy that it receives, at any time, so after a resend it may answer twice.
-/

set_option autoImplicit false
set_option linter.unusedSectionVars false

namespace Covered.Edge

open Lib Lib.Checked Lib.Execution KeyedList List

/-- The parts in which the functions differ. `τ` are the targets, `ρ` the responses, and `α` is what
the function changes beside its own counters. -/
structure ParallelRequest (τ ρ α : Type) where
  /-- How many targets a batch may have, if the function has batches. -/
  maxVictimcnt : Option Nat
  isCurrent : τ → Bool
  /-- What a round asserts about a target that has not acknowledged. -/
  mayRequest : τ → Bool
  /-- How the current edge handles its own part; the flag says that the edge is not running. -/
  handleCurrent : τ → α → α × Bool
  getRequest : τ → α → α
  target : ρ → τ
  /-- What is asserted about the response of a target. -/
  accepts : ρ → Bool
  process : ρ → α → α × Bool
  /-- A response is processed before its target is looked up. -/
  processesUnmatched : Bool
  /-- The round-trip time of the first response is measured. -/
  measuresFirstRtt : Bool
  unmatched_single : processesUnmatched = true → maxVictimcnt = none

/-- Where a call is: before a batch, before a round, in the receive loop with the number of
responses that it still expects, or back at its caller. -/
inductive LoopPhase
  | batching
  | looping
  | receiving (expectedRspcnt : Nat)
  | returned (isFinish : Bool)
deriving DecidableEq

/-- The acknowledgement flags of a call are looked up by target and flag. -/
instance lawfulBEq_ackedFlag {τ : Type} [DecidableEq τ] : LawfulBEq (τ × Bool) := inferInstance

/-- The variables of a call. `processed` is history: the targets whose part was processed. -/
structure Loop (τ α : Type) where
  phase : LoopPhase
  remainingVictims : List τ
  ackedFlags : List (τ × Bool)
  ackedCnt : Nat
  isStaleResponse : Bool
  isMeasureFirstReq : Bool
  isMeasureFirstRsp : Bool
  acc : α
  processed : List τ

variable {τ ρ α : Type} [DecidableEq τ]

namespace Loop

def start (targets : List τ) (acc : α) : Loop τ α where
  phase := .batching
  remainingVictims := targets
  ackedFlags := []
  ackedCnt := 0
  isStaleResponse := false
  isMeasureFirstReq := false
  isMeasureFirstRsp := false
  acc := acc
  processed := []

def acknowledge (s : Loop τ α) (t : τ) : Loop τ α :=
  { s with
    ackedFlags := KeyedList.replace Prod.fst t (t, true) s.ackedFlags
    ackedCnt := s.ackedCnt + 1 }

/-- The receive loop with `n` responses to come. -/
def await (s : Loop τ α) (n : Nat) : Loop τ α :=
  match s.phase with
  | .returned _ => s
  | _ => { s with phase := if n = 0 then .looping else .receiving n }

def beginBatch (s : Loop τ α) (batch : List τ) : Loop τ α :=
  { s with
    phase := .looping
    remainingVictims := s.remainingVictims.drop batch.length
    ackedFlags := batch.map fun t => (t, false)
    ackedCnt := 0
    isStaleResponse := false
    isMeasureFirstReq := false
    isMeasureFirstRsp := false }

/-- The start of the measurement is reset unless it is over. -/
def restartMeasurement (s : Loop τ α) : Loop τ α :=
  { s with isMeasureFirstReq := s.isMeasureFirstRsp && s.isMeasureFirstReq }

/-- What a timeout does: a new round if the edge is running. -/
def timeout (s : Loop τ α) (isNodeRunning : Bool) : Option (Loop τ α) :=
  match s.phase with
  | .receiving _ =>
      if isNodeRunning then some { s with phase := .looping, isStaleResponse := false }
      else some { s with phase := .returned true }
  | _ => none

end Loop

namespace ParallelRequest

variable (f : ParallelRequest τ ρ α)

/-- The targets of the next batch. -/
def nextBatch (remainingVictims : List τ) : Option (List τ) :=
  match f.maxVictimcnt with
  | none => some remainingVictims
  | some maxVictimcnt =>
      if remainingVictims.length ≤ maxVictimcnt then some remainingVictims
      else do
        let batch := remainingVictims.take maxVictimcnt
        require (batch.length = maxVictimcnt)
        return batch

/-- The sending part of a round; also returns the targets to which a request is sent. -/
def sendRequests : List (τ × Bool) → Loop τ α → Option (Loop τ α × List τ)
  | [], s => some (s, [])
  | (t, isAcked) :: rest, s =>
      if isAcked then sendRequests rest s
      else do
        require (f.mayRequest t = true)
        if f.isCurrent t then
          let (acc, isFinish) := f.handleCurrent t s.acc
          if isFinish then return ({ s with acc := acc, phase := .returned true }, [])
          else
            sendRequests rest { s.acknowledge t with acc := acc, processed := s.processed ++ [t] }
        else
          let (s', sent) ← sendRequests rest
            { s with acc := f.getRequest t s.acc, isMeasureFirstReq := true }
          return (s', t :: sent)

/-- The next part of a call that does not wait. -/
def advance (s : Loop τ α) : Option (Loop τ α × List τ) :=
  match s.phase with
  | .batching =>
      if s.remainingVictims = [] then some ({ s with phase := .returned false }, [])
      else do
        let batch ← f.nextBatch s.remainingVictims
        return (s.beginBatch batch, [])
  | .looping =>
      if s.ackedCnt = s.ackedFlags.length then some ({ s with phase := .batching }, [])
      else if s.isStaleResponse then
        some (s.await (s.ackedFlags.length - s.ackedCnt), [])
      else do
        let (s', sent) ← f.sendRequests s.ackedFlags s.restartMeasurement
        return (s'.await (s'.ackedFlags.length - s'.ackedCnt), sent)
  | _ => none

def measureFirstRsp (s : Loop τ α) : Option (Loop τ α) :=
  if f.measuresFirstRtt = false ∨ s.isMeasureFirstRsp = true then some s
  else do
    require (s.isMeasureFirstReq = true)
    return { s with isMeasureFirstRsp := true }

def processResponse (r : ρ) (s : Loop τ α) : Loop τ α :=
  let (acc, isFinish) := f.process r s.acc
  { s with
    acc := acc
    processed := s.processed ++ [f.target r]
    phase := if isFinish then .returned true else s.phase }

/-- The response of a target is matched with its flag. -/
def matchResponse (r : ρ) (s : Loop τ α) : Option (Loop τ α) :=
  match KeyedList.find Prod.fst (f.target r) s.ackedFlags with
  | none => some s
  | some (_, isAcked) => do
      require (isAcked = false)
      require (f.accepts r = true)
      let s' := if f.processesUnmatched then s else f.processResponse r s
      return s'.acknowledge (f.target r)

/-- What receiving a message does. -/
def receive (curMsgSeqnum msgSeqnum : Nat) (r : ρ) (s : Loop τ α) : Option (Loop τ α) :=
  match s.phase with
  | .receiving n =>
      if msgSeqnum ≠ curMsgSeqnum then
        some { s with phase := .looping, isStaleResponse := true }
      else do
        let s1 ← f.measureFirstRsp s
        let s2 := if f.processesUnmatched then f.processResponse r s1 else s1
        let s3 ← f.matchResponse r s2
        return s3.await (n - 1)
  | _ => none

end ParallelRequest

/-! ## Calls with the network -/

/-- A call with the copies of its request and the responses in flight. -/
structure ParallelCall (τ ρ α : Type) where
  loop : Loop τ α
  requests : List τ
  responses : List (Nat × ρ)

namespace ParallelCall

def initial (targets : List τ) (acc : α) : ParallelCall τ ρ α where
  loop := .start targets acc
  requests := []
  responses := []

/-- What can happen: the call goes on, runs into a timeout or receives a message; a target answers a
copy of the request; a message is lost; a message of another call comes. -/
inductive Action (ρ : Type)
  | advance
  | timeout (isNodeRunning : Bool)
  | recv (i : Nat)
  | answer (i : Nat) (r : ρ)
  | loseRequest (i : Nat)
  | loseResponse (i : Nat)
  | foreign (msgSeqnum : Nat) (r : ρ)

variable (f : ParallelRequest τ ρ α) (curMsgSeqnum : Nat)

/-- One step; it fails where the call does, and where the action is not possible. -/
def step (s : ParallelCall τ ρ α) : Action ρ → Option (ParallelCall τ ρ α × Unit)
  | .advance => do
      let (loop, sent) ← f.advance s.loop
      return ({ s with loop := loop, requests := s.requests ++ sent }, ())
  | .timeout isNodeRunning => do
      let loop ← s.loop.timeout isNodeRunning
      return ({ s with loop := loop }, ())
  | .recv i => do
      let (msgSeqnum, r) ← s.responses[i]?
      let loop ← f.receive curMsgSeqnum msgSeqnum r s.loop
      return ({ s with loop := loop, responses := s.responses.eraseIdx i }, ())
  | .answer i r => do
      let t ← s.requests[i]?
      require (f.target r = t ∧ f.accepts r = true)
      return ({ s with
        requests := s.requests.eraseIdx i
        responses := s.responses ++ [(curMsgSeqnum, r)] }, ())
  | .loseRequest i => do
      require (i < s.requests.length)
      return ({ s with requests := s.requests.eraseIdx i }, ())
  | .loseResponse i => do
      require (i < s.responses.length)
      return ({ s with responses := s.responses.eraseIdx i }, ())
  | .foreign msgSeqnum r => do
      require (msgSeqnum ≠ curMsgSeqnum)
      return ({ s with responses := s.responses ++ [(msgSeqnum, r)] }, ())

/-- The action is possible. -/
def Enabled (s : ParallelCall τ ρ α) : Action ρ → Prop
  | .advance => s.loop.phase = .batching ∨ s.loop.phase = .looping
  | .timeout _ => ∃ n, s.loop.phase = .receiving n
  | .recv i => (∃ n, s.loop.phase = .receiving n) ∧ i < s.responses.length
  | .answer i r => s.requests[i]? = some (f.target r) ∧ f.accepts r = true
  | .loseRequest i => i < s.requests.length
  | .loseResponse i => i < s.responses.length
  | .foreign msgSeqnum _ => msgSeqnum ≠ curMsgSeqnum

/-- The condition: no second response of a target that has acknowledged is received in its batch,
and what a round asserts about the targets without acknowledgement is true of them. -/
def Meets (s : ParallelCall τ ρ α) : Action ρ → Prop
  | .recv i => ∀ r, s.responses[i]? = some (curMsgSeqnum, r) →
      (f.target r, true) ∉ s.loop.ackedFlags
  | .advance => ∀ t, (t, false) ∈ s.loop.ackedFlags → f.mayRequest t = true
  | _ => True

instance (s : ParallelCall τ ρ α) (a : Action ρ) : Decidable (Meets f curMsgSeqnum s a) :=
  match a with
  | .recv i =>
      decidable_of_iff (∀ p ∈ s.responses[i]?,
          p.1 = curMsgSeqnum → (f.target p.2, true) ∉ s.loop.ackedFlags)
        ⟨fun h _ hr => h _ hr rfl, fun h p hp heq => h p.2 (heq ▸ hp)⟩
  | .advance =>
      decidable_of_iff (∀ p ∈ s.loop.ackedFlags, p.2 = false → f.mayRequest p.1 = true)
        ⟨fun h _ ht => h _ ht rfl, fun h p hp heq => h p.1 (heq ▸ hp)⟩
  | .timeout _ => isTrue trivial
  | .answer _ _ => isTrue trivial
  | .loseRequest _ => isTrue trivial
  | .loseResponse _ => isTrue trivial
  | .foreign _ _ => isTrue trivial

end ParallelCall

/-! ## What a call keeps -/

section Safety

variable {f : ParallelRequest τ ρ α} {targets : List τ} {s : Loop τ α} {t : τ}

/-- What holds between any two statements of a call: the flags, the victims that remain and the
processed targets together are the targets, and the counter counts the flags. -/
structure Loop.Core (f : ParallelRequest τ ρ α) (targets : List τ) (s : Loop τ α) : Prop where
  flags : KeyedList.NodupKeys Prod.fst s.ackedFlags
  remaining : s.remainingVictims.Nodup
  apart : ∀ t ∈ s.remainingVictims, t ∉ s.ackedFlags.map Prod.fst
  asked : ∀ t ∈ s.ackedFlags.map Prod.fst, t ∈ targets
  later : ∀ t ∈ s.remainingVictims, t ∈ targets ∧ t ∉ s.processed
  once : s.processed.Nodup
  processed : ∀ t ∈ s.processed, t ∈ targets
  covered : ∀ t ∈ targets,
    t ∈ s.remainingVictims ∨ (t, false) ∈ s.ackedFlags ∨ t ∈ s.processed
  acked : ∀ t, (t, true) ∈ s.ackedFlags → t ∈ s.processed
  pending : ∀ t, (t, false) ∈ s.ackedFlags → t ∉ s.processed
  count : s.ackedCnt = s.ackedFlags.countP Prod.snd
  single : f.maxVictimcnt = none →
    (s.remainingVictims = [] ∨ s.ackedFlags = []) ∧
      ∀ t ∈ s.processed, t ∈ s.ackedFlags.map Prod.fst

/-- What holds in each phase. -/
def Loop.InPhase (s : Loop τ α) : Prop :=
  match s.phase with
  | .batching => ∀ t, (t, false) ∉ s.ackedFlags
  | .looping => s.isStaleResponse = true →
      s.isMeasureFirstReq = true ∨ s.isMeasureFirstRsp = true
  | .receiving _ => s.isMeasureFirstReq = true ∨ s.isMeasureFirstRsp = true
  | .returned false => s.remainingVictims = [] ∧ ∀ t, (t, false) ∉ s.ackedFlags
  | .returned true => True

namespace Loop

variable {l : List (τ × Bool)}

theorem mem_replace_of_ne {t : τ} {p : τ × Bool} (hne : p.1 ≠ t) (hp : p ∈ l) :
    p ∈ replace Prod.fst t (t, true) l := by
  induction l with
  | nil => cases hp
  | cons q rest ih =>
    rw [KeyedList.replace]
    rcases mem_cons.1 hp with rfl | hp
    · rw [if_neg hne]
      exact mem_cons_self
    · split
      · exact mem_cons_of_mem _ hp
      · exact mem_cons_of_mem _ (ih hp)

theorem countP_replace (h : KeyedList.NodupKeys Prod.fst l) (ht : (t, false) ∈ l) :
    (replace Prod.fst t (t, true) l).countP Prod.snd = l.countP Prod.snd + 1 := by
  induction l with
  | nil => cases ht
  | cons q rest ih =>
    rw [KeyedList.NodupKeys, map_cons, nodup_cons] at h
    rw [KeyedList.replace]
    rcases mem_cons.1 ht with rfl | ht
    · rw [if_pos rfl, countP_cons_of_pos rfl, countP_cons_of_neg Bool.false_ne_true]
    · have hne : q.1 ≠ t := fun heq => h.1 (heq ▸ mem_map.2 ⟨_, ht, rfl⟩)
      rw [if_neg hne, countP_cons, countP_cons, ih h.2 ht]
      omega

/-- A flag after an acknowledgement is the flag of another target before, or set. -/
theorem mem_acknowledge {p : τ × Bool} (h : KeyedList.NodupKeys Prod.fst s.ackedFlags)
    (hp : p ∈ (s.acknowledge t).ackedFlags) : p = (t, true) ∨ p.1 ≠ t ∧ p ∈ s.ackedFlags := by
  exact (h.mem_replace rfl hp).imp_right And.symm

/-- Processing the part of a target without acknowledgement, and setting its flag. -/
theorem Core.acknowledge (h : Core f targets s) (ht : (t, false) ∈ s.ackedFlags) (acc : α)
    (phase : LoopPhase) :
    Core f targets
      { s.acknowledge t with acc := acc, processed := s.processed ++ [t], phase := phase } := by
  have hkeys : (s.acknowledge t).ackedFlags.map Prod.fst = s.ackedFlags.map Prod.fst :=
    map_replace rfl
  have hkey : t ∈ s.ackedFlags.map Prod.fst := mem_map.2 ⟨_, ht, rfl⟩
  have hmem : ∀ {u}, u ∈ s.processed ++ [t] ↔ u ∈ s.processed ∨ u = t := by
    intro u
    rw [mem_append, mem_singleton]
  constructor
  · exact h.flags.replace rfl
  · exact h.remaining
  · intro u hu
    rw [hkeys]
    exact h.apart u hu
  · intro u hu
    exact h.asked u (hkeys ▸ hu)
  · intro u hu
    refine ⟨(h.later u hu).1, fun hproc => ?_⟩
    rcases hmem.1 hproc with hproc | rfl
    · exact (h.later u hu).2 hproc
    · exact h.apart u hu hkey
  · refine nodup_append.2 ⟨h.once, nodup_singleton _, ?_⟩
    rintro a ha b hb rfl
    exact h.pending t ht (mem_singleton.1 hb ▸ ha)
  · intro u hu
    rcases hmem.1 hu with hu | rfl
    · exact h.processed u hu
    · exact h.asked u hkey
  · intro u hu
    rcases h.covered u hu with hu | hu | hu
    · exact .inl hu
    · by_cases hut : u = t
      · exact .inr (.inr (hmem.2 (.inr hut)))
      · exact .inr (.inl (mem_replace_of_ne hut hu))
    · exact .inr (.inr (hmem.2 (.inl hu)))
  · intro u hu
    rcases mem_acknowledge h.flags hu with heq | ⟨-, hu⟩
    · exact hmem.2 (.inr (congrArg Prod.fst heq))
    · exact hmem.2 (.inl (h.acked u hu))
  · intro u hu hproc
    rcases mem_acknowledge h.flags hu with heq | ⟨hne, hu⟩
    · cases heq
    · exact h.pending u hu ((hmem.1 hproc).resolve_right hne)
  · exact (congrArg (· + 1) h.count).trans (countP_replace h.flags ht).symm
  · intro hnone
    obtain ⟨hremaining, hwithin⟩ := h.single hnone
    refine ⟨.inl (hremaining.resolve_right fun hempty => ?_), ?_⟩
    · rw [hempty] at ht
      cases ht
    · intro u hu
      rw [hkeys]
      rcases hmem.1 hu with hu | rfl
      · exact hwithin u hu
      · exact hkey

/-- The phase, the measurement and what the function changes play no part in it. -/
theorem Core.congr {s' : Loop τ α} (h : Core f targets s) (hflags : s.ackedFlags = s'.ackedFlags)
    (hremaining : s.remainingVictims = s'.remainingVictims) (hcnt : s.ackedCnt = s'.ackedCnt)
    (hprocessed : s.processed = s'.processed) : Core f targets s' := by
  cases s
  cases s'
  dsimp only at hflags hremaining hcnt hprocessed
  subst hflags hremaining hcnt hprocessed
  exact ⟨h.flags, h.remaining, h.apart, h.asked, h.later, h.once, h.processed, h.covered, h.acked,
    h.pending, h.count, h.single⟩

/-- All flags are set iff the counter has reached their number. -/
theorem Core.ackedCnt_eq_iff (h : Core f targets s) :
    s.ackedCnt = s.ackedFlags.length ↔ ∀ t, (t, false) ∉ s.ackedFlags := by
  rw [h.count, countP_eq_length]
  constructor
  · intro hall t ht
    exact Bool.false_ne_true (hall _ ht)
  · rintro hnone ⟨t, isAcked⟩ hp
    cases isAcked with
    | true => rfl
    | false => exact absurd hp (hnone t)

/-- What a sending round does: the flags of the current edge are set, and unless the edge is not
running every other target without acknowledgement is sent a request. -/
structure Round (f : ParallelRequest τ ρ α) (targets : List τ) (l : List (τ × Bool))
    (s s' : Loop τ α) (sent : List τ) : Prop where
  core : Core f targets s'
  keys : s'.ackedFlags.map Prod.fst = s.ackedFlags.map Prod.fst
  phase : s'.phase = s.phase ∨ s'.phase = .returned true
  stale : s'.isStaleResponse = s.isStaleResponse
  measured : s'.isMeasureFirstRsp = s.isMeasureFirstRsp
  measuring : s.isMeasureFirstReq = true → s'.isMeasureFirstReq = true
  unacked : ∀ t, (t, false) ∈ s'.ackedFlags → (t, false) ∈ s.ackedFlags
  processed : ∀ t ∈ s.processed, t ∈ s'.processed
  sent : ∀ t ∈ sent, (t, false) ∈ l
  requested : s'.phase = .returned true ∨
    ∀ t, (t, false) ∈ l → (t, false) ∈ s'.ackedFlags → s'.isMeasureFirstReq = true

theorem sendRequests_spec (h : Core f targets s) (hl : ∀ p ∈ l, p ∈ s.ackedFlags)
    (hnodup : KeyedList.NodupKeys Prod.fst l) (hmay : ∀ t, (t, false) ∈ l → f.mayRequest t = true) :
    ∃ s' sent, f.sendRequests l s = some (s', sent) ∧ Round f targets l s s' sent := by
  induction l generalizing s with
  | nil =>
    refine ⟨s, [], rfl, ?_⟩
    exact ⟨h, rfl, .inl rfl, rfl, rfl, id, fun _ => id, fun _ => id,
      fun _ ht => absurd ht not_mem_nil, .inr fun _ ht => absurd ht not_mem_nil⟩
  | cons p rest ih =>
    obtain ⟨t, isAcked⟩ := p
    rw [KeyedList.NodupKeys, map_cons, nodup_cons] at hnodup
    have hrest : ∀ q ∈ rest, q ∈ s.ackedFlags := fun q hq => hl q (mem_cons_of_mem _ hq)
    have hmayRest : ∀ u, (u, false) ∈ rest → f.mayRequest u = true :=
      fun u hu => hmay u (mem_cons_of_mem _ hu)
    have hin : (t, isAcked) ∈ s.ackedFlags := hl _ mem_cons_self
    cases isAcked with
    | true =>
      obtain ⟨s', sent, heq, hround⟩ := ih h hrest hnodup.2 hmayRest
      refine ⟨s', sent, ?_, { hround with sent := ?_, requested := ?_ }⟩
      · rw [ParallelRequest.sendRequests, if_pos rfl, heq]
      · exact fun u hu => mem_cons_of_mem _ (hround.sent u hu)
      · refine hround.requested.imp_right fun hreq u hu => hreq u ?_
        refine (mem_cons.1 hu).resolve_left fun heq => ?_
        cases heq
    | false =>
      have hmayThis : f.mayRequest t = true := hmay t mem_cons_self
      by_cases hcurrent : f.isCurrent t = true
      · obtain ⟨⟨acc, isFinish⟩, hhandle⟩ : ∃ p, f.handleCurrent t s.acc = p := ⟨_, rfl⟩
        cases isFinish with
        | true =>
          refine ⟨{ s with acc := acc, phase := .returned true }, [], ?_, ?_⟩
          · simp [ParallelRequest.sendRequests, require, hmayThis, hcurrent, hhandle]
          · exact ⟨h.congr rfl rfl rfl rfl, rfl, .inr rfl, rfl, rfl, id, fun _ => id, fun _ => id,
              fun _ hu => absurd hu not_mem_nil, .inl rfl⟩
        | false =>
          -- the other targets of the round keep their flags
          obtain ⟨s', sent, heq, hround⟩ := ih (h.acknowledge hin acc s.phase)
            (fun q hq => mem_replace_of_ne
              (fun hkey => hnodup.1 (hkey ▸ mem_map.2 ⟨q, hq, rfl⟩)) (hrest q hq))
            hnodup.2 hmayRest
          have hself : (t, false) ∉ s'.ackedFlags := by
            intro hmem
            rcases mem_acknowledge h.flags (hround.unacked t hmem) with heq | ⟨hne, -⟩
            · cases heq
            · exact hne rfl
          refine ⟨s', sent, ?_, hround.core, ?_, hround.phase, hround.stale, hround.measured,
            hround.measuring, ?_, ?_, ?_, ?_⟩
          · simp [ParallelRequest.sendRequests, require, hmayThis, hcurrent, hhandle]
            exact heq
          · exact hround.keys.trans (map_replace rfl)
          · intro u hu
            rcases mem_acknowledge h.flags (hround.unacked u hu) with heq | ⟨-, hmem⟩
            · cases heq
            · exact hmem
          · exact fun u hu => hround.processed u (mem_append_left _ hu)
          · exact fun u hu => mem_cons_of_mem _ (hround.sent u hu)
          · refine hround.requested.imp_right fun hreq u hu hmem => hreq u ?_ hmem
            refine (mem_cons.1 hu).resolve_left fun heq => ?_
            cases heq
            exact hself hmem
      · obtain ⟨s', sent, heq, hround⟩ := ih
          (s := { s with acc := f.getRequest t s.acc, isMeasureFirstReq := true })
          (h.congr rfl rfl rfl rfl) hrest hnodup.2 hmayRest
        have hreq : s'.isMeasureFirstReq = true := hround.measuring rfl
        refine ⟨s', t :: sent, ?_, hround.core, hround.keys, hround.phase, hround.stale,
          hround.measured, fun _ => hreq, hround.unacked, hround.processed, ?_,
            .inr fun _ _ _ => hreq⟩
        · simp [ParallelRequest.sendRequests, require, hmayThis, hcurrent, heq]
        · intro u hu
          rcases mem_cons.1 hu with rfl | hu
          · exact mem_cons_self
          · exact mem_cons_of_mem _ (hround.sent u hu)

variable {n curMsgSeqnum : Nat}

theorem inPhase_await (hphase : s.phase ≠ .returned false)
    (hmeasure : n = 0 ∧ s.isStaleResponse = false ∨
      s.isMeasureFirstReq = true ∨ s.isMeasureFirstRsp = true) : (s.await n).InPhase := by
  have hawait :
      ({ s with phase := if n = 0 then .looping else .receiving n } : Loop τ α).InPhase := by
    by_cases hn : n = 0
    · simp only [InPhase, if_pos hn]
      intro hstale
      rcases hmeasure with ⟨-, hfresh⟩ | hmeasure
      · rw [hfresh] at hstale
        cases hstale
      · exact hmeasure
    · simp only [InPhase, if_neg hn]
      exact hmeasure.resolve_left fun hzero => hn hzero.1
  cases hp : s.phase with
  | returned isFinish =>
    cases isFinish with
    | false => exact absurd hp hphase
    | true => simp only [await, hp, InPhase]
  | batching => simpa only [await, hp] using hawait
  | looping => simpa only [await, hp] using hawait
  | receiving m => simpa only [await, hp] using hawait

theorem core_await (h : Core f targets s) (n : Nat) : Core f targets (s.await n) := by
  rw [await]
  split
  · exact h
  · exact h.congr rfl rfl rfl rfl

@[simp] theorem ackedFlags_await (n : Nat) : (s.await n).ackedFlags = s.ackedFlags := by
  rw [await]
  split <;> rfl

@[simp] theorem processed_await (n : Nat) : (s.await n).processed = s.processed := by
  rw [await]
  split <;> rfl

/-- A target of the batch or of an earlier one. -/
def Known (s : Loop τ α) (t : τ) : Prop := t ∈ s.ackedFlags.map Prod.fst ∨ t ∈ s.processed

/-- A target that was asked was processed or is without acknowledgement. -/
theorem Core.known (h : Core f targets s) (ht : s.Known t) :
    t ∈ s.processed ∨ (t, false) ∈ s.ackedFlags := by
  rcases ht with ht | ht
  · obtain ⟨⟨u, isAcked⟩, hp, rfl⟩ := mem_map.1 ht
    cases isAcked with
    | true => exact .inl (h.acked u hp)
    | false => exact .inr hp
  · exact .inl ht

/-- The next batch: a start of the remaining victims, all of them without batches. -/
theorem nextBatch_spec (l : List τ) :
    ∃ n, f.nextBatch l = some (l.take n) ∧ (f.maxVictimcnt = none → l.length ≤ n) := by
  rw [ParallelRequest.nextBatch]
  cases f.maxVictimcnt with
  | none => exact ⟨l.length, by rw [take_length], fun _ => Nat.le_refl _⟩
  | some maxVictimcnt =>
    by_cases hle : l.length ≤ maxVictimcnt
    · exact ⟨l.length, by simp only [if_pos hle, take_length], fun hnone => nomatch hnone⟩
    · refine ⟨maxVictimcnt, ?_, fun hnone => nomatch hnone⟩
      have hlength : (l.take maxVictimcnt).length = maxVictimcnt :=
        length_take_of_le (Nat.le_of_not_le hle)
      simp [hle, hlength, require]

/-- A new batch starts when all targets of the one before have acknowledged. -/
theorem Core.beginBatch (h : Core f targets s) (hdone : ∀ t, (t, false) ∉ s.ackedFlags)
    (hne : s.remainingVictims ≠ [])
    (hall : f.maxVictimcnt = none → s.remainingVictims.length ≤ n) :
    Core f targets (s.beginBatch (s.remainingVictims.take n)) := by
  have hkeys : (s.beginBatch (s.remainingVictims.take n)).ackedFlags.map Prod.fst =
      s.remainingVictims.take n := by
    rw [Loop.beginBatch, map_map]
    exact map_id _
  have hdrop : (s.beginBatch (s.remainingVictims.take n)).remainingVictims =
      s.remainingVictims.drop n := by
    rw [Loop.beginBatch, length_take]
    rcases Nat.le_total n s.remainingVictims.length with hle | hle
    · rw [Nat.min_eq_left hle]
    · rw [Nat.min_eq_right hle, drop_length, drop_of_length_le hle]
  have hflag : ∀ {p}, p ∈ (s.beginBatch (s.remainingVictims.take n)).ackedFlags →
      p.2 = false ∧ p.1 ∈ s.remainingVictims := by
    intro p hp
    obtain ⟨u, hu, rfl⟩ := mem_map.1 hp
    exact ⟨rfl, mem_of_mem_take hu⟩
  have hnodup : (s.remainingVictims.take n ++ s.remainingVictims.drop n).Nodup := by
    rw [take_append_drop]
    exact h.remaining
  constructor
  · rw [KeyedList.NodupKeys, hkeys]
    exact (nodup_append.1 hnodup).1
  · rw [hdrop]
    exact (nodup_append.1 hnodup).2.1
  · intro t ht hmem
    rw [hdrop] at ht
    rw [hkeys] at hmem
    exact (nodup_append.1 hnodup).2.2 t hmem t ht rfl
  · intro t ht
    rw [hkeys] at ht
    exact (h.later t (mem_of_mem_take ht)).1
  · intro t ht
    rw [hdrop] at ht
    exact h.later t (mem_of_mem_drop ht)
  · exact h.once
  · exact h.processed
  · intro t ht
    rcases h.covered t ht with hrem | hflags | hproc
    · rw [← take_append_drop n s.remainingVictims] at hrem
      rcases mem_append.1 hrem with hrem | hrem
      · exact .inr (.inl (mem_map.2 ⟨t, hrem, rfl⟩))
      · exact .inl (hdrop ▸ hrem)
    · exact absurd hflags (hdone t)
    · exact .inr (.inr hproc)
  · intro t ht
    exact absurd (hflag ht).1 (Bool.noConfusion)
  · intro t ht
    exact (h.later t (hflag ht).2).2
  · refine (countP_eq_zero.2 fun p hp => ?_).symm
    rw [(hflag hp).1]
    exact Bool.false_ne_true
  · intro hnone
    obtain ⟨hremaining, hwithin⟩ := h.single hnone
    refine ⟨.inl ?_, fun t ht => ?_⟩
    · rw [hdrop]
      exact drop_of_length_le (hall hnone)
    · have hmem := hwithin t ht
      rw [hremaining.resolve_left hne] at hmem
      cases hmem

/-- What the parts of a call keep, and that no target is forgotten. -/
structure Kept (f : ParallelRequest τ ρ α) (targets : List τ) (s s' : Loop τ α) : Prop where
  core : Core f targets s'
  inPhase : s'.InPhase
  known : ∀ t, s.Known t → s'.Known t

theorem advance_spec (h : Core f targets s) (hphase : s.InPhase)
    (henabled : s.phase = .batching ∨ s.phase = .looping)
    (hmay : ∀ t, (t, false) ∈ s.ackedFlags → f.mayRequest t = true) :
    ∃ s' sent, f.advance s = some (s', sent) ∧ Kept f targets s s' ∧ ∀ t ∈ sent, s'.Known t := by
  have hnothing : ∀ {s' : Loop τ α}, ∀ t ∈ ([] : List τ), s'.Known t :=
    fun t ht => absurd ht not_mem_nil
  rcases henabled with hp | hp
  · -- a new batch, or the end of the call
    simp only [InPhase, hp] at hphase
    by_cases hrem : s.remainingVictims = []
    · refine ⟨{ s with phase := .returned false }, [], ?_, ⟨h.congr rfl rfl rfl rfl, ?_, ?_⟩,
        hnothing⟩
      · simp only [ParallelRequest.advance, hp, if_pos hrem]
      · exact ⟨hrem, hphase⟩
      · exact fun t ht => ht
    · obtain ⟨n, hbatch, hall⟩ := nextBatch_spec (f := f) s.remainingVictims
      refine ⟨s.beginBatch (s.remainingVictims.take n), [], ?_,
        ⟨h.beginBatch hphase hrem hall, ?_, ?_⟩, hnothing⟩
      · simp [ParallelRequest.advance, hp, hrem, hbatch]
      · intro hstale
        exact Bool.noConfusion hstale
      · intro t ht
        exact .inr ((h.known ht).resolve_right (hphase t))
  · simp only [InPhase, hp] at hphase
    by_cases hcnt : s.ackedCnt = s.ackedFlags.length
    · refine ⟨{ s with phase := .batching }, [], ?_, ⟨h.congr rfl rfl rfl rfl, ?_, ?_⟩, hnothing⟩
      · simp only [ParallelRequest.advance, hp, if_pos hcnt]
      · exact h.ackedCnt_eq_iff.1 hcnt
      · exact fun t ht => ht
    · by_cases hstale : s.isStaleResponse = true
      · refine ⟨s.await (s.ackedFlags.length - s.ackedCnt), [], ?_,
          ⟨core_await h _, inPhase_await ?_ (.inr (hphase hstale)), ?_⟩, hnothing⟩
        · simp only [ParallelRequest.advance, hp, if_neg hcnt, if_pos hstale]
        · rw [hp]
          exact LoopPhase.noConfusion
        · intro t ht
          simpa only [Known, ackedFlags_await, processed_await] using ht
      · -- a round of requests
        obtain ⟨s', sent, heq, hround⟩ := sendRequests_spec (l := s.ackedFlags)
          (s := s.restartMeasurement) (h.congr rfl rfl rfl rfl) (fun p hp => hp) h.flags hmay
        refine ⟨s'.await (s'.ackedFlags.length - s'.ackedCnt), sent, ?_,
          ⟨core_await hround.core _, ?_, ?_⟩, ?_⟩
        · simp [ParallelRequest.advance, hp, hcnt, hstale, heq]
        · have hfinished : s'.phase ≠ .returned false := by
            intro hfalse
            rcases hround.phase with heq | heq
            · rw [heq] at hfalse
              exact absurd (hp.symm.trans hfalse) LoopPhase.noConfusion
            · rw [heq] at hfalse
              cases hfalse
          rcases hround.requested with hreturned | hreq
          · simp only [await, hreturned, InPhase]
          · refine inPhase_await hfinished ?_
            by_cases hdone : ∀ t, (t, false) ∉ s'.ackedFlags
            · left
              refine ⟨?_, hround.stale.trans (Bool.eq_false_iff.2 hstale)⟩
              rw [hround.core.ackedCnt_eq_iff.2 hdone, Nat.sub_self]
            · obtain ⟨t, ht⟩ := not_forall_not.1 hdone
              exact .inr (.inl (hreq t (hround.unacked t ht) ht))
        · intro t ht
          rw [Known, ackedFlags_await, processed_await]
          rcases ht with ht | ht
          · exact .inl (hround.keys.symm ▸ ht)
          · exact .inr (hround.processed t ht)
        · intro t ht
          rw [Known, ackedFlags_await, hround.keys]
          exact .inl (mem_map.2 ⟨_, hround.sent t ht, rfl⟩)

theorem timeout_spec (h : Core f targets s) (hp : s.phase = .receiving n) (isNodeRunning : Bool) :
    ∃ s', s.timeout isNodeRunning = some s' ∧ Kept f targets s s' := by
  cases isNodeRunning with
  | true =>
    refine ⟨{ s with phase := .looping, isStaleResponse := false }, ?_, h.congr rfl rfl rfl rfl,
      fun hstale => Bool.noConfusion hstale, fun t ht => ht⟩
    simp only [timeout, hp, if_true]
  | false =>
    refine ⟨{ s with phase := .returned true }, ?_, h.congr rfl rfl rfl rfl, trivial,
      fun t ht => ht⟩
    simp only [timeout, hp, Bool.false_eq_true, if_false]

/-- The measurement was started before the first response of the batch comes. -/
theorem measureFirstRsp_spec (h : Core f targets s)
    (hmeasure : s.isMeasureFirstReq = true ∨ s.isMeasureFirstRsp = true) :
    ∃ s', f.measureFirstRsp s = some s' ∧ Core f targets s' ∧ s'.phase = s.phase ∧
      s'.ackedFlags = s.ackedFlags ∧ s'.processed = s.processed ∧
      (s'.isMeasureFirstReq = true ∨ s'.isMeasureFirstRsp = true) := by
  by_cases hskip : f.measuresFirstRtt = false ∨ s.isMeasureFirstRsp = true
  · exact ⟨s, if_pos hskip, h, rfl, rfl, rfl, hmeasure⟩
  · have hreq := hmeasure.resolve_right fun hrsp => hskip (.inr hrsp)
    refine ⟨{ s with isMeasureFirstRsp := true }, ?_, h.congr rfl rfl rfl rfl, rfl, rfl, rfl,
      .inr rfl⟩
    rw [ParallelRequest.measureFirstRsp, if_neg hskip]
    exact require_bind_of hreq _

/-- The state after the first response of a target without acknowledgement in its batch. -/
def afterResponse (f : ParallelRequest τ ρ α) (r : ρ) (s : Loop τ α) : Loop τ α :=
  (f.processResponse r s).acknowledge (f.target r)

theorem Core.afterResponse {r : ρ} (h : Core f targets s)
    (ht : (f.target r, false) ∈ s.ackedFlags) : Core f targets (afterResponse f r s) :=
  h.acknowledge ht _ _

theorem receive_spec (h : Core f targets s) (hphase : s.InPhase)
    (hp : s.phase = .receiving n) {msgSeqnum : Nat} {r : ρ}
    (hr : msgSeqnum = curMsgSeqnum →
      s.Known (f.target r) ∧ (f.target r, true) ∉ s.ackedFlags ∧ f.accepts r = true) :
    ∃ s', f.receive curMsgSeqnum msgSeqnum r s = some s' ∧ Kept f targets s s' := by
  simp only [InPhase, hp] at hphase
  by_cases hseq : msgSeqnum = curMsgSeqnum
  · obtain ⟨hknown, hfirst, haccepts⟩ := hr hseq
    obtain ⟨s1, hs1, hcore, hp1, hflags, hprocessed, hmeasure⟩ := measureFirstRsp_spec h hphase
    cases hfind : find Prod.fst (f.target r) s.ackedFlags with
    | none =>
      -- a target of an earlier batch: its response is only counted
      have hunmatched : f.processesUnmatched = false := by
        refine Bool.eq_false_iff.2 fun hall => ?_
        have hkey := find_eq_none_iff.1 hfind
        exact hkey (hknown.elim id ((h.single (f.unmatched_single hall)).2 _))
      refine ⟨s1.await (n - 1), ?_, core_await hcore _, inPhase_await ?_ (.inr hmeasure), ?_⟩
      · simp [ParallelRequest.receive, hp, hseq, hs1, hunmatched, ParallelRequest.matchResponse,
          hflags, hfind]
      · rw [hp1, hp]
        exact LoopPhase.noConfusion
      · intro t ht
        rwa [Known, ackedFlags_await, processed_await, hflags, hprocessed]
    | some p =>
      obtain ⟨t, isAcked⟩ := p
      obtain rfl : t = f.target r := key_of_find hfind
      have hmem := mem_of_find hfind
      cases isAcked with
      | true => exact absurd hmem hfirst
      | false =>
        refine ⟨(afterResponse f r s1).await (n - 1), ?_, core_await (hcore.afterResponse
          (hflags ▸ hmem)) _, inPhase_await ?_ (.inr hmeasure), ?_⟩
        · have hfind' : find Prod.fst (f.target r) (f.processResponse r s1).ackedFlags =
              some (f.target r, false) := by
            rw [← hfind, ← hflags]
            rfl
          have hfind1 : find Prod.fst (f.target r) s1.ackedFlags =
              some (f.target r, false) := hfind'
          cases hunmatched : f.processesUnmatched with
          | true =>
            simp [ParallelRequest.receive, hp, hseq, hs1, hunmatched,
              ParallelRequest.matchResponse, hfind', haccepts, require, afterResponse]
          | false =>
            simp [ParallelRequest.receive, hp, hseq, hs1, hunmatched,
              ParallelRequest.matchResponse, hfind1, haccepts, require, afterResponse]
        · have hphase' : (afterResponse f r s1).phase =
              if (f.process r s1.acc).2 then .returned true else s1.phase := rfl
          rw [hphase', hp1, hp]
          split
          · intro heq
            cases heq
          · exact LoopPhase.noConfusion
        · intro t ht
          rw [Known, ackedFlags_await, processed_await]
          have hkeys : (afterResponse f r s1).ackedFlags.map Prod.fst =
              s1.ackedFlags.map Prod.fst := map_replace rfl
          rw [hkeys, hflags]
          refine ht.imp_right fun ht => ?_
          rw [← hprocessed] at ht
          exact mem_append_left _ ht
  · refine ⟨{ s with phase := .looping, isStaleResponse := true }, ?_, h.congr rfl rfl rfl rfl,
      fun _ => hphase, fun t ht => ht⟩
    simp only [ParallelRequest.receive, hp, if_pos hseq]

theorem ackedFlags_measureFirstRsp {s' : Loop τ α} (h : f.measureFirstRsp s = some s') :
    s'.ackedFlags = s.ackedFlags := by
  rw [ParallelRequest.measureFirstRsp] at h
  split at h
  · cases h
    rfl
  · obtain ⟨-, heq⟩ := require_bind_iff.1 h
    cases heq
    rfl

/-- A second response of a target in its batch fails the assertion on its flag. -/
theorem receive_second (h : Core f targets s) {r : ρ} (hacked : (f.target r, true) ∈ s.ackedFlags) :
    f.receive curMsgSeqnum curMsgSeqnum r s = none := by
  have hfind : find Prod.fst (f.target r) s.ackedFlags = some (f.target r, true) :=
    (find_eq_some_iff h.flags).2 ⟨hacked, rfl⟩
  have hmatch : ∀ s' : Loop τ α, s'.ackedFlags = s.ackedFlags → f.matchResponse r s' = none := by
    intro s' hflags
    rw [ParallelRequest.matchResponse, hflags, hfind]
    rfl
  rw [ParallelRequest.receive]
  split
  · rw [if_neg (not_not.2 rfl)]
    cases hs1 : f.measureFirstRsp s with
    | none => rfl
    | some s1 =>
      have hflags := ackedFlags_measureFirstRsp hs1
      have hprocess : (f.processResponse r s1).ackedFlags = s.ackedFlags := hflags
      simp only [Option.bind_eq_bind, Option.bind_some]
      split
      · rw [hmatch _ hprocess, Option.bind_none]
      · rw [hmatch _ hflags, Option.bind_none]
  · rfl

end Loop

/-! ## What a call with the network keeps -/

namespace ParallelCall

variable {curMsgSeqnum : Nat} {c c' : ParallelCall τ ρ α}

/-- The invariant: the messages in flight belong to targets that were asked. -/
structure Inv (f : ParallelRequest τ ρ α) (targets : List τ) (curMsgSeqnum : Nat)
    (c : ParallelCall τ ρ α) : Prop where
  core : Loop.Core f targets c.loop
  inPhase : c.loop.InPhase
  requests : ∀ t ∈ c.requests, c.loop.Known t
  responses : ∀ r, (curMsgSeqnum, r) ∈ c.responses →
    c.loop.Known (f.target r) ∧ f.accepts r = true

theorem inv_initial (hnodup : targets.Nodup) (acc : α) :
    Inv f targets curMsgSeqnum (initial targets acc) := by
  refine ⟨?_, fun t ht => absurd ht not_mem_nil, fun t ht => absurd ht not_mem_nil,
    fun r hr => absurd hr not_mem_nil⟩
  constructor
  · exact nodup_nil
  · exact hnodup
  · exact fun t _ => not_mem_nil
  · exact fun t ht => absurd ht not_mem_nil
  · exact fun t ht => ⟨ht, not_mem_nil⟩
  · exact nodup_nil
  · exact fun t ht => absurd ht not_mem_nil
  · exact fun t ht => .inl ht
  · exact fun t ht => absurd ht not_mem_nil
  · exact fun t ht => absurd ht not_mem_nil
  · rfl
  · exact fun _ => ⟨.inr rfl, fun t ht => absurd ht not_mem_nil⟩

theorem Inv.of_kept (h : Inv f targets curMsgSeqnum c) {loop : Loop τ α}
    (hkept : Loop.Kept f targets c.loop loop) {requests : List τ} {responses : List (Nat × ρ)}
    (hrequests : ∀ t ∈ requests, t ∈ c.requests ∨ loop.Known t)
    (hresponses : ∀ r ∈ responses, r ∈ c.responses) :
    Inv f targets curMsgSeqnum ⟨loop, requests, responses⟩ where
  core := hkept.core
  inPhase := hkept.inPhase
  requests := fun t ht => (hrequests t ht).elim (fun ht => hkept.known t (h.requests t ht)) id
  responses := fun r hr => (h.responses r (hresponses _ hr)).imp_left (hkept.known _)

variable {a : Action ρ}

/-- An action that is possible and meets the condition does not fail, and keeps the invariant. -/
theorem step_spec (h : Inv f targets curMsgSeqnum c)
    (henabled : Enabled f curMsgSeqnum c a) (hmeets : Meets f curMsgSeqnum c a) :
    ∃ c', step f curMsgSeqnum c a = some (c', ()) ∧ Inv f targets curMsgSeqnum c' := by
  have hsame : Loop.Kept f targets c.loop c.loop := ⟨h.core, h.inPhase, fun t ht => ht⟩
  cases a with
  | advance =>
    obtain ⟨loop, sent, heq, hkept, hsent⟩ := Loop.advance_spec h.core h.inPhase henabled hmeets
    have hstep : step f curMsgSeqnum c .advance =
        some (⟨loop, c.requests ++ sent, c.responses⟩, ()) := by
      simp only [step, heq, some_bind, Option.pure_def]
    refine ⟨_, hstep, h.of_kept hkept (fun t ht => ?_) fun r hr => hr⟩
    exact (mem_append.1 ht).imp_right (hsent t)
  | timeout isNodeRunning =>
    obtain ⟨n, hp⟩ := henabled
    obtain ⟨loop, heq, hkept⟩ := Loop.timeout_spec h.core hp isNodeRunning
    have hstep : step f curMsgSeqnum c (.timeout isNodeRunning) =
        some (⟨loop, c.requests, c.responses⟩, ()) := by
      simp only [step, heq, some_bind, Option.pure_def]
    exact ⟨_, hstep, h.of_kept hkept (fun t ht => .inl ht) fun r hr => hr⟩
  | recv i =>
    obtain ⟨⟨n, hp⟩, hi⟩ := henabled
    obtain ⟨⟨msgSeqnum, r⟩, hget⟩ : ∃ p, c.responses[i]? = some p :=
      ⟨_, getElem?_eq_getElem hi⟩
    have hr : msgSeqnum = curMsgSeqnum → c.loop.Known (f.target r) ∧
        (f.target r, true) ∉ c.loop.ackedFlags ∧ f.accepts r = true := by
      rintro rfl
      obtain ⟨hknown, haccepts⟩ := h.responses r (mem_of_getElem? hget)
      exact ⟨hknown, hmeets r hget, haccepts⟩
    obtain ⟨loop, heq, hkept⟩ := Loop.receive_spec h.core h.inPhase hp hr
    have hstep : step f curMsgSeqnum c (.recv i) =
        some (⟨loop, c.requests, c.responses.eraseIdx i⟩, ()) := by
      simp only [step, hget, heq, some_bind, Option.pure_def]
    exact ⟨_, hstep, h.of_kept hkept (fun t ht => .inl ht)
      fun r hr => (eraseIdx_sublist ..).mem hr⟩
  | answer i r =>
    obtain ⟨hget, haccepts⟩ := henabled
    have hknown : c.loop.Known (f.target r) := h.requests _ (mem_of_getElem? hget)
    have hstep : step f curMsgSeqnum c (.answer i r) = some
        (⟨c.loop, c.requests.eraseIdx i, c.responses ++ [(curMsgSeqnum, r)]⟩, ()) := by
      simp [step, hget, haccepts, require]
    refine ⟨_, hstep, h.core, h.inPhase,
      fun t ht => h.requests t ((eraseIdx_sublist ..).mem ht), fun r' hr' => ?_⟩
    rcases mem_append.1 hr' with hr' | hr'
    · exact h.responses r' hr'
    · rw [mem_singleton, Prod.mk.injEq] at hr'
      obtain ⟨-, rfl⟩ := hr'
      exact ⟨hknown, haccepts⟩
  | loseRequest i =>
    have hlt : i < c.requests.length := henabled
    have hstep : step f curMsgSeqnum c (.loseRequest i) =
        some (⟨c.loop, c.requests.eraseIdx i, c.responses⟩, ()) := require_bind_of hlt _
    exact ⟨_, hstep, h.of_kept hsame (fun t ht => .inl ((eraseIdx_sublist ..).mem ht))
      fun r hr => hr⟩
  | loseResponse i =>
    have hlt : i < c.responses.length := henabled
    have hstep : step f curMsgSeqnum c (.loseResponse i) =
        some (⟨c.loop, c.requests, c.responses.eraseIdx i⟩, ()) := require_bind_of hlt _
    exact ⟨_, hstep, h.of_kept hsame (fun t ht => .inl ht)
      fun r hr => (eraseIdx_sublist ..).mem hr⟩
  | foreign msgSeqnum r =>
    have hne : msgSeqnum ≠ curMsgSeqnum := henabled
    have hstep : step f curMsgSeqnum c (.foreign msgSeqnum r) =
        some (⟨c.loop, c.requests, c.responses ++ [(msgSeqnum, r)]⟩, ()) := require_bind_of hne _
    refine ⟨_, hstep, h.core, h.inPhase, h.requests, fun r' hr' => ?_⟩
    rcases mem_append.1 hr' with hr' | hr'
    · exact h.responses r' hr'
    · rw [mem_singleton, Prod.mk.injEq] at hr'
      exact absurd hr'.1.symm hne

/-- A step that does not fail was possible. -/
theorem enabled_of_step (h : step f curMsgSeqnum c a = some (c', ())) :
    Enabled f curMsgSeqnum c a := by
  cases a with
  | advance =>
    simp only [step, bind_eq_some_iff] at h
    obtain ⟨⟨loop, sent⟩, heq, -⟩ := h
    rw [ParallelRequest.advance] at heq
    split at heq
    · next hp => exact .inl hp
    · next hp => exact .inr hp
    · cases heq
  | timeout isNodeRunning =>
    simp only [step, bind_eq_some_iff] at h
    obtain ⟨loop, heq, -⟩ := h
    rw [Loop.timeout] at heq
    split at heq
    · next n hp => exact ⟨n, hp⟩
    · cases heq
  | recv i =>
    simp only [step, bind_eq_some_iff] at h
    obtain ⟨⟨msgSeqnum, r⟩, hget, loop, heq, -⟩ := h
    refine ⟨?_, (List.getElem?_eq_some_iff.1 hget).1⟩
    rw [ParallelRequest.receive] at heq
    split at heq
    · next n hp => exact ⟨n, hp⟩
    · cases heq
  | answer i r =>
    simp only [step, bind_eq_some_iff, require_eq_some_iff] at h
    obtain ⟨t, hget, -, ⟨rfl, haccepts⟩, -⟩ := h
    exact ⟨hget, haccepts⟩
  | loseRequest i => exact (require_bind_iff.1 h).1
  | loseResponse i => exact (require_bind_iff.1 h).1
  | foreign msgSeqnum r => exact (require_bind_iff.1 h).1

theorem inv_step (h : Inv f targets curMsgSeqnum c) (hmeets : Meets f curMsgSeqnum c a) {out : Unit}
    (hstep : step f curMsgSeqnum c a = some (c', out)) : Inv f targets curMsgSeqnum c' := by
  obtain ⟨c'', heq, hinv⟩ := step_spec h (enabled_of_step hstep) hmeets
  rw [heq, Option.some.injEq, Prod.mk.injEq] at hstep
  exact hstep.1 ▸ hinv

end ParallelCall

end Safety

/-! ## Robustness -/

/-- In every run whose steps meet the condition: no assertion fails, the part of each target is
processed at most once, and the call returns with the edge running only when the part of every
target was processed. A reception that does not meet the condition fails. -/
def ParallelRequest.Robust (f : ParallelRequest τ ρ α) : Prop :=
  ∀ (targets : List τ) (acc : α) (curMsgSeqnum : Nat) tr c, targets.Nodup →
    Runs (ParallelCall.step f curMsgSeqnum) (ParallelCall.Meets f curMsgSeqnum)
      (.initial targets acc) tr c →
    (∀ a, ParallelCall.Enabled f curMsgSeqnum c a → ParallelCall.Meets f curMsgSeqnum c a →
      (ParallelCall.step f curMsgSeqnum c a).isSome = true) ∧
    (∀ i, ¬ ParallelCall.Meets f curMsgSeqnum c (.recv i) →
      ParallelCall.step f curMsgSeqnum c (.recv i) = none) ∧
    (c.loop.processed.Nodup ∧ ∀ t ∈ c.loop.processed, t ∈ targets) ∧
    (c.loop.phase = .returned false → ∀ t ∈ targets, t ∈ c.loop.processed)

theorem ParallelRequest.robust (f : ParallelRequest τ ρ α) : f.Robust := by
  intro targets acc curMsgSeqnum tr c hnodup hrun
  have h : ParallelCall.Inv f targets curMsgSeqnum c :=
    hrun.invariant (ParallelCall.inv_initial hnodup acc)
      fun hbefore hmeets hstep => ParallelCall.inv_step hbefore hmeets hstep
  refine ⟨fun a henabled hmeets => ?_, fun i hnot => ?_, ⟨h.core.once, h.core.processed⟩, ?_⟩
  · obtain ⟨c', heq, -⟩ := ParallelCall.step_spec h henabled hmeets
    rw [heq, Option.isSome_some]
  · simp only [ParallelCall.Meets, not_forall, not_not] at hnot
    obtain ⟨r, hget, hacked⟩ := hnot
    simp only [ParallelCall.step, hget, Option.bind_eq_bind, Option.bind_some,
      Loop.receive_second h.core hacked, Option.bind_none]
  · intro hp t ht
    have hphase := h.inPhase
    simp only [Loop.InPhase, hp] at hphase
    obtain ⟨hremaining, hflags⟩ := hphase
    rcases h.core.covered t ht with hrem | hflag | hproc
    · rw [hremaining] at hrem
      cases hrem
    · exact absurd hflag (hflags t)
    · exact hproc

end Covered.Edge
