import Mathlib
import Covered.Common.Doubles
import Covered.Lib.Checked
import Covered.Lib.Execution

/-!
# Latencies of single links

An edge generates the latency to another edge either from the link's own distribution and random
generator, or from a matrix of base latencies and one distribution of offsets for all links.

`link_latency_iff` is when the latencies of a link follow its own generator: a call works on a copy
of the generator, so every call gets the first draw. `offset_latency_iff` is when a latency from the
matrix is the base latency with the offset, as a number: the difference of 32-bit numbers wraps
around.
-/

set_option autoImplicit false

namespace Covered.Network.LinkLatency

open Common Lib.Checked Lib.Execution

/-- The random numbers of the standard library: each distribution takes what it needs from a
generator, and a uniform one stays in its range. -/
structure RandomSource (F G : Type) where
  uniformInt : UInt32 → UInt32 → G → UInt32 × G
  poisson : UInt32 → G → UInt32 × G
  uniformReal : G → F × G
  uniformInt_mem : ∀ l r g, l ≤ r → l ≤ (uniformInt l r g).1 ∧ (uniformInt l r g).1 ≤ r

inductive LinkDistType
  | uniform
  | poisson
  | pareto
deriving DecidableEq, Repr

/-- The distribution of a link. -/
structure LinkDistParams (F : Type) where
  type : LinkDistType
  l : UInt32
  r : UInt32
  lambda : UInt32
  k : F
  uniformL : UInt32
  uniformR : UInt32

/-- The distributions that the matrix mode knows, and all others. -/
inductive Distname
  | constant
  | uniform
  | other
deriving DecidableEq, Repr

/-- The part of the parameter of a propagation simulator that generates latencies. The bounds of a
distribution are checked when it is built. -/
structure PropagationSimulatorParam (F G : Type) where
  propagationLatencyDistname : Distname
  propagationLatencyLboundUs : UInt32
  propagationLatencyAvgUs : UInt32
  propagationLatencyRboundUs : UInt32
  p2pLatencyArray : List UInt32
  isRndLink : Bool
  linkDistParams : List (LinkDistParams F)
  linkRandgens : List G
  propagationLatencyRandgen : G
  bounds : propagationLatencyDistname ≠ .constant →
    propagationLatencyLboundUs ≤ propagationLatencyAvgUs ∧
      propagationLatencyAvgUs ≤ propagationLatencyRboundUs

variable {F G : Type} [Doubles F]

/-! ## The generators -/

/-- The conversion of a double to a 32-bit number; that of any other double is undefined. -/
def toUint32 (x : F) : Option UInt32 := do
  let n := Doubles.truncate x
  require (0 ≤ n ∧ n < 2 ^ 32)
  return UInt32.ofNat n.toNat

/-- A latency with a Pareto distribution between the bounds, from a number between zero and one. -/
def paretoLatency (params : LinkDistParams F) (u : F) : Option UInt32 := do
  require (Doubles.lt (Doubles.ofNat 0) params.k = true)
  let l : F := Doubles.ofNat params.l.toNat
  let r : F := Doubles.ofNat params.r.toNat
  let one : F := Doubles.ofNat 1
  let u := if Doubles.le one u then one - Doubles.ofRat (1 / 10 ^ 10) else u
  let factor := one - Doubles.pow (l / r) params.k
  let term := one - u * factor
  require (Doubles.lt (Doubles.ofNat 0) term = true)
  let propagationLatency ← toUint32 (l * Doubles.pow term (-one / params.k))
  require (Doubles.le l (Doubles.ofNat propagationLatency.toNat) = true ∧
    Doubles.le (Doubles.ofNat propagationLatency.toNat) r = true)
  return propagationLatency

/-- The next draw of a link's generator, and the generator after it. The latency has to be
positive. -/
def drawLatency (R : RandomSource F G) (params : LinkDistParams F) (linkRandgen : G) :
    Option UInt32 × G :=
  match params.type with
  | .uniform =>
      let (propagationLatency, linkRandgen) :=
        R.uniformInt params.uniformL params.uniformR linkRandgen
      (do
        require (params.uniformL ≤ propagationLatency)
        require (propagationLatency ≤ params.uniformR)
        require (0 < propagationLatency)
        return propagationLatency, linkRandgen)
  | .poisson =>
      let (draw, linkRandgen) := R.poisson params.lambda linkRandgen
      let propagationLatency :=
        if draw < params.l then params.l else if params.r < draw then params.r else draw
      (do
        require (0 < propagationLatency)
        return propagationLatency, linkRandgen)
  | .pareto =>
      let (u, linkRandgen) := R.uniformReal linkRandgen
      (do
        let propagationLatency ← paretoLatency params u
        require (0 < propagationLatency)
        return propagationLatency, linkRandgen)

/-- A latency from the link's own distribution. The generator of the link is copied and the copy is
advanced. -/
def genPropagationLatencyOfJRnd (R : RandomSource F G) (param : PropagationSimulatorParam F G)
    (j : Nat) : Option (PropagationSimulatorParam F G × UInt32) := do
  require (j < param.p2pLatencyArray.length)
  let linkDistParam ← param.linkDistParams[j]?
  let linkRandgen ← param.linkRandgens[j]?
  let propagationLatency ← (drawLatency R linkDistParam linkRandgen).1
  return (param, propagationLatency)

/-- A latency from the matrix. -/
def genPropagationLatencyOfJOffset (R : RandomSource F G) (param : PropagationSimulatorParam F G)
    (j : Nat) : Option (PropagationSimulatorParam F G × UInt32) := do
  let propagationLatencyBase ← param.p2pLatencyArray[j]?
  match param.propagationLatencyDistname with
  | .constant => return (param, propagationLatencyBase)
  | .uniform =>
      let (propagationLatencyOff, randgen) := R.uniformInt param.propagationLatencyLboundUs
        param.propagationLatencyRboundUs param.propagationLatencyRandgen
      require (param.propagationLatencyLboundUs ≤ propagationLatencyOff)
      require (propagationLatencyOff ≤ param.propagationLatencyRboundUs)
      return ({ param with propagationLatencyRandgen := randgen },
        propagationLatencyBase + propagationLatencyOff - param.propagationLatencyAvgUs)
  | .other => none

def genPropagationLatencyOfJ (R : RandomSource F G) (param : PropagationSimulatorParam F G)
    (j : Nat) : Option (PropagationSimulatorParam F G × UInt32) :=
  if param.isRndLink then genPropagationLatencyOfJRnd R param j
  else genPropagationLatencyOfJOffset R param j

/-! ## The sequences that the generators stand for -/

/-- What the call with the given index for a link returns if each call takes the next draw of the
link's generator. -/
def nthLatency (R : RandomSource F G) (params : LinkDistParams F) (linkRandgen : G) (n : Nat) :
    Option UInt32 :=
  (drawLatency R params (Nat.iterate (fun g => (drawLatency R params g).2) n linkRandgen)).1

/-- The generator of the offsets after the given number of draws. -/
def randgenAfter (R : RandomSource F G) (param : PropagationSimulatorParam F G) (n : Nat) : G :=
  Nat.iterate (fun g => (R.uniformInt param.propagationLatencyLboundUs
    param.propagationLatencyRboundUs g).2) n param.propagationLatencyRandgen

/-- The offset with the given index, of one sequence for all links. -/
def nthOffset (R : RandomSource F G) (param : PropagationSimulatorParam F G) (n : Nat) : UInt32 :=
  (R.uniformInt param.propagationLatencyLboundUs param.propagationLatencyRboundUs
    (randgenAfter R param n)).1

/-! ## Sequences of calls -/

section Runs

variable {R : RandomSource F G} {param param' : PropagationSimulatorParam F G}
  {tr : List (Nat × UInt32)} {j : Nat}

/-- The number of calls for a link. -/
def callsFor (tr : List (Nat × UInt32)) (j : Nat) : Nat := (tr.map Prod.fst).count j

/-- A call for a link with its own distribution changes nothing. -/
theorem rnd_unchanged (hrnd : param.isRndLink = true)
    (h : Runs (genPropagationLatencyOfJ R) anyAction param tr param') : param' = param := by
  refine h.invariant (P := fun s => s = param) rfl ?_
  rintro s i s' latency rfl - hstep
  rw [genPropagationLatencyOfJ, if_pos hrnd] at hstep
  simp only [genPropagationLatencyOfJRnd, bind_eq_some_iff, require_eq_some_iff, pure_eq_some_iff,
    Prod.mk.injEq] at hstep
  obtain ⟨-, -, -, -, -, -, -, -, rfl, -⟩ := hstep
  rfl

/-- After any calls, the next call for a link returns the next draw of its generator iff that gives
the same latency as the first draw. -/
theorem link_latency_iff (hrnd : param.isRndLink = true)
    (h : Runs (genPropagationLatencyOfJ R) anyAction param tr param')
    (hj : j < param.p2pLatencyArray.length) {params : LinkDistParams F} {linkRandgen : G}
    (hparams : param.linkDistParams[j]? = some params)
    (hrandgen : param.linkRandgens[j]? = some linkRandgen) :
    (genPropagationLatencyOfJ R param' j).map Prod.snd =
        nthLatency R params linkRandgen (callsFor tr j) ↔
      nthLatency R params linkRandgen (callsFor tr j) = nthLatency R params linkRandgen 0 := by
  have hcall : (genPropagationLatencyOfJ R param' j).map Prod.snd =
      nthLatency R params linkRandgen 0 := by
    rw [rnd_unchanged hrnd h, genPropagationLatencyOfJ, if_pos hrnd, genPropagationLatencyOfJRnd]
    simp only [require_bind hj, hparams, hrandgen, some_bind, Option.pure_def]
    rw [nthLatency, Nat.iterate]
    cases (drawLatency R params linkRandgen).1 <;> rfl
  rw [hcall]
  exact eq_comm

/-- A call for a latency from the matrix. -/
theorem offset_eq (hrnd : param.isRndLink = false)
    (huniform : param.propagationLatencyDistname = .uniform) {base : UInt32}
    (hbase : param.p2pLatencyArray[j]? = some base) :
    genPropagationLatencyOfJ R param j = some
      ({ param with propagationLatencyRandgen := (R.uniformInt param.propagationLatencyLboundUs
          param.propagationLatencyRboundUs param.propagationLatencyRandgen).2 },
        base + nthOffset R param 0 - param.propagationLatencyAvgUs) := by
  obtain ⟨hlow, hhigh⟩ := param.bounds (by rw [huniform]; decide)
  obtain ⟨hge, hle⟩ := R.uniformInt_mem _ _ param.propagationLatencyRandgen
    (UInt32.le_trans hlow hhigh)
  simp only [genPropagationLatencyOfJ, hrnd, Bool.false_eq_true, if_false,
    genPropagationLatencyOfJOffset, hbase, huniform, some_bind, require_bind hge, require_bind hle,
    Option.pure_def]
  rfl

omit [Doubles F] in
theorem randgenAfter_succ (R : RandomSource F G) (param : PropagationSimulatorParam F G) (n : Nat) :
    randgenAfter R param (n + 1) = (R.uniformInt param.propagationLatencyLboundUs
      param.propagationLatencyRboundUs (randgenAfter R param n)).2 :=
  Function.iterate_succ_apply' ..

/-- Calls for latencies from the matrix take the offsets one after the other. -/
theorem offset_advanced (hrnd : param.isRndLink = false)
    (huniform : param.propagationLatencyDistname = .uniform)
    (h : Runs (genPropagationLatencyOfJ R) anyAction param tr param') :
    param' = { param with propagationLatencyRandgen := randgenAfter R param tr.length } := by
  refine h.trace_invariant (P := fun tr s =>
    s = { param with propagationLatencyRandgen := randgenAfter R param tr.length }) rfl ?_
  rintro tr s i s' latency rfl - hstep
  have hbase : ∃ base, param.p2pLatencyArray[i]? = some base := by
    simp only [genPropagationLatencyOfJ, hrnd, Bool.false_eq_true, if_false,
      genPropagationLatencyOfJOffset, bind_eq_some_iff] at hstep
    obtain ⟨base, hbase, -⟩ := hstep
    exact ⟨base, hbase⟩
  obtain ⟨base, hbase⟩ := hbase
  rw [offset_eq (by exact hrnd) (by exact huniform) (by exact hbase), Option.some.injEq,
    Prod.mk.injEq] at hstep
  rw [← hstep.1, List.length_cons, randgenAfter_succ]

/-- A sum of latencies less a third one is the number that it stands for iff that is a 32-bit
number. -/
theorem sub_eq_iff (base draw average : UInt32) :
    ((base + draw - average).toNat : ℤ) = base.toNat + draw.toNat - average.toNat ↔
      average.toNat ≤ base.toNat + draw.toNat ∧
        base.toNat + draw.toNat < average.toNat + 2 ^ 32 := by
  have hbase := base.toNat_lt
  have hdraw := draw.toNat_lt
  have haverage := average.toNat_lt
  rw [UInt32.toNat_sub, UInt32.toNat_add]
  omega

/-- After any calls: if links have their own distributions, the next call for a link returns the
next draw of its generator iff that gives the same latency as the first draw. If latencies come from
the matrix with uniform offsets, the next call for a link returns the base latency and the next
offset less the average, as numbers, iff that is a 32-bit number. -/
theorem next_latency_iff (h : Runs (genPropagationLatencyOfJ R) anyAction param tr param') :
    (param.isRndLink = true → ∀ j params linkRandgen, j < param.p2pLatencyArray.length →
      param.linkDistParams[j]? = some params → param.linkRandgens[j]? = some linkRandgen →
      ((genPropagationLatencyOfJ R param' j).map Prod.snd =
          nthLatency R params linkRandgen (callsFor tr j) ↔
        nthLatency R params linkRandgen (callsFor tr j) = nthLatency R params linkRandgen 0)) ∧
    (param.isRndLink = false → param.propagationLatencyDistname = .uniform →
      ∀ (j : Nat) base, param.p2pLatencyArray[j]? = some base →
      ∃ latency, (genPropagationLatencyOfJ R param' j).map Prod.snd = some latency ∧
        ((latency.toNat : ℤ) = base.toNat + (nthOffset R param tr.length).toNat -
            param.propagationLatencyAvgUs.toNat ↔
          param.propagationLatencyAvgUs.toNat ≤
              base.toNat + (nthOffset R param tr.length).toNat ∧
            base.toNat + (nthOffset R param tr.length).toNat <
              param.propagationLatencyAvgUs.toNat + 2 ^ 32)) := by
  refine ⟨?_, ?_⟩
  · intro hrnd j params linkRandgen hj hparams hrandgen
    exact link_latency_iff hrnd h hj hparams hrandgen
  · intro hrnd huniform j base hbase
    rw [offset_advanced hrnd huniform h,
      offset_eq (by exact hrnd) (by exact huniform) (by exact hbase)]
    exact ⟨_, rfl, sub_eq_iff ..⟩

end Runs

/-! ## Two calls -/

/-- No arithmetic: for links whose latencies are not computed with doubles. -/
@[reducible]
def noDoubles : Doubles Unit where
  ofRat _ := ()
  truncate _ := 0
  exp _ := ()
  log2 _ := ()
  pow _ _ := ()
  fabs _ := ()
  lt _ _ := false
  eq _ _ := false

/-- The draws of a uniform distribution are its bounds in turn. -/
def boundsInTurn : RandomSource Unit Nat where
  uniformInt l r g := (if g % 2 = 0 then l else r, g + 1)
  poisson lambda g := (lambda, g + 1)
  uniformReal g := ((), g + 1)
  uniformInt_mem l r g h := by
    dsimp only
    split
    · exact ⟨UInt32.le_refl l, h⟩
    · exact ⟨h, UInt32.le_refl r⟩

/-- One link with a uniform distribution. -/
def uniformLink : LinkDistParams Unit := ⟨.uniform, 1, 10, 0, (), 1, 10⟩

/-- An edge with one link that has its own distribution. -/
def ownDistribution : PropagationSimulatorParam Unit Nat :=
  ⟨.other, 1, 5, 9, [4294967295], true, [uniformLink], [0], 0, fun _ => by decide⟩

/-- An edge with one base latency of `3` and offsets between `1` and `9`. -/
def baseLatency : PropagationSimulatorParam Unit Nat :=
  ⟨.uniform, 1, 5, 9, [3], false, [], [], 0, fun _ => by decide⟩

/-- The second call for a latency from the matrix returns `3 + 9 - 5`. -/
theorem next_latency_iff_second :
    ∃ tr s latency, Runs (@genPropagationLatencyOfJ Unit Nat noDoubles boundsInTurn) anyAction
        baseLatency tr s ∧ tr.length = 1 ∧
      (@genPropagationLatencyOfJ Unit Nat noDoubles boundsInTurn s 0).map Prod.snd = some latency ∧
      (latency.toNat : ℤ) = 3 + 9 - 5 := by
  have hrun := @Runs.cons _ _ _ (@genPropagationLatencyOfJ Unit Nat noDoubles boundsInTurn)
    anyAction baseLatency [] baseLatency _ 0 _ .nil trivial rfl
  obtain ⟨latency, hcall, hiff⟩ :=
    (@next_latency_iff Unit Nat noDoubles _ _ _ _ hrun).2 rfl rfl 0 3 rfl
  exact ⟨_, _, latency, hrun, rfl, hcall, hiff.2 (by decide)⟩

/-- The second call for a link returns the first draw again, and the first call for a latency from
the matrix returns `2 ^ 32 - 1` for `3 + 1 - 5`. -/
theorem draw_repeats_offset_wraps :
    (Runs (@genPropagationLatencyOfJ Unit Nat noDoubles boundsInTurn) anyAction ownDistribution
        [(0, 1), (0, 1)] ownDistribution ∧
      @nthLatency Unit Nat noDoubles boundsInTurn uniformLink 0 1 = some 10) ∧
    (@genPropagationLatencyOfJ Unit Nat noDoubles boundsInTurn baseLatency 0).map Prod.snd =
      some 4294967295 := by
  have hcall : @genPropagationLatencyOfJ Unit Nat noDoubles boundsInTurn ownDistribution 0 =
      some (ownDistribution, 1) := rfl
  exact ⟨⟨.cons (.cons .nil trivial hcall) trivial hcall, rfl⟩, rfl⟩

end Covered.Network.LinkLatency
