import Mathlib.Data.List.Nodup
import Covered.Common.Util

/-!
# Addresses of edges

The machines that host the edges, the edges of each machine and the cache server workers of each
edge. Edges are spread over the machines by floor division, the remainder on the last machine; the
port of a worker is the start port plus its place among the workers of the machine, and it must be
below the next start port of any component. The inverse direction subtracts the start port and takes
what remains for the place of the edge on the machine.

`getEdgeIdx_workerRecvreqAddr` says what the inverse computes, and `addresses_invertible_iff` that
it finds the edge of every worker only with one worker for each edge and ports for all of them.
-/

set_option autoImplicit false

namespace Covered.Edge

open Common Lib.Checked

/-- The part of the configuration that says where edges are. -/
structure EdgeConfig where
  isSimulation : Bool
  edgecnt : Nat
  /-- Public addresses of the machines that host edges. -/
  edgeMachineIpstrs : List (List UInt8)
  edgeCacheServerWorkerRecvreqStartport : Nat
  /-- The start ports of all components. -/
  startports : List Nat
  startport_mem : edgeCacheServerWorkerRecvreqStartport ∈ startports

namespace EdgeConfig

def permachineEdgecnt (config : EdgeConfig) : Nat :=
  config.edgecnt / config.edgeMachineIpstrs.length

/-- The edge of a cache server worker, computed from the address of the worker. -/
def getEdgeIdxFromCacheServerWorkerRecvreqAddr (config : EdgeConfig) (addr : NetworkAddr) :
    Option Nat := do
  let localMachineIdx ← config.edgeMachineIpstrs.findIdx? fun ipstr => ipstr == addr.ipstr
  require (config.edgeCacheServerWorkerRecvreqStartport ≤ addr.port.toNat)
  let localEdgeIdx := addr.port.toNat - config.edgeCacheServerWorkerRecvreqStartport
  require (0 < config.permachineEdgecnt)
  if localMachineIdx < config.edgeMachineIpstrs.length - 1 then
    require (localEdgeIdx < config.permachineEdgecnt)
  return localMachineIdx * config.permachineEdgecnt + localEdgeIdx

def toUint16 (val : Nat) : Option Nat :=
  if val < 65536 then some val else none

def getNodePort (startPort nodeIdx nodecnt machineCnt : Nat) : Option Nat := do
  require (0 < machineCnt)
  let permachineNodecnt := nodecnt / machineCnt
  require (0 < permachineNodecnt)
  let machineIdx := nodeIdx / permachineNodecnt
  if machineIdx < machineCnt then
    let localNodeIdx := nodeIdx - machineIdx * permachineNodecnt
    require (localNodeIdx < permachineNodecnt)
    toUint16 (startPort + localNodeIdx)
  else
    let localNodeIdx := nodeIdx - (machineCnt - 1) * permachineNodecnt
    require (permachineNodecnt ≤ localNodeIdx)
    toUint16 (startPort + localNodeIdx)

/-- The port must be below the next start port, if there is one. The single-node simulator launches
no components and verifies no ports. -/
def portVerification (config : EdgeConfig) (startport finalport : Nat) : Option Unit :=
  if config.isSimulation = true then some ()
  else do
    require (startport ∈ config.startports)
    require (∀ next ∈ config.startports, startport < next → finalport < next)

/-- The port of a worker of an edge, each edge with `percacheserverWorkercnt` workers. -/
def getEdgeCacheServerWorkerRecvreqPort (config : EdgeConfig)
    (edgeIdx localCacheServerWorkerIdx percacheserverWorkercnt : Nat) : Option Nat := do
  let startport := config.edgeCacheServerWorkerRecvreqStartport
  let recvreqPort ← getNodePort startport edgeIdx config.edgecnt config.edgeMachineIpstrs.length
  let workerRecvreqPort ← toUint16 (startport + (recvreqPort - startport) *
    percacheserverWorkercnt + localCacheServerWorkerIdx)
  config.portVerification startport workerRecvreqPort
  return workerRecvreqPort

theorem toUint16_eq_some {val port : Nat} (h : toUint16 val = some port) :
    port = val ∧ val < 65536 := by
  rw [toUint16] at h
  split at h
  · next hlt => exact ⟨(Option.some.inj h).symm, hlt⟩
  · cases h

/-- The address of the machine of an edge. With fewer edges than machines every edge has its own
machine; otherwise the last machine takes the remaining edges. -/
def getEdgeIpstr (config : EdgeConfig) (edgeIdx : Nat) : Option (List UInt8) := do
  require (edgeIdx < config.edgecnt)
  require (0 < config.edgeMachineIpstrs.length)
  if config.edgecnt ≤ config.edgeMachineIpstrs.length then
    config.edgeMachineIpstrs[edgeIdx]?
  else
    require (0 < config.permachineEdgecnt)
    let localMachineIdx := edgeIdx / config.permachineEdgecnt
    if localMachineIdx ≥ config.edgeMachineIpstrs.length then
      config.edgeMachineIpstrs[config.edgeMachineIpstrs.length - 1]?
    else config.edgeMachineIpstrs[localMachineIdx]?

/-- The address at which a worker receives requests. -/
def workerRecvreqAddr (config : EdgeConfig)
    (edgeIdx localCacheServerWorkerIdx percacheserverWorkercnt : Nat) : Option NetworkAddr := do
  let ipstr ← config.getEdgeIpstr edgeIdx
  let port ← config.getEdgeCacheServerWorkerRecvreqPort edgeIdx localCacheServerWorkerIdx
    percacheserverWorkercnt
  return ⟨ipstr, UInt16.ofNat port⟩

/-! ## What the functions compute -/

/-- The place of the machine of an edge among the machines. -/
def localMachineIdx (config : EdgeConfig) (edgeIdx : Nat) : Nat :=
  min (edgeIdx / config.permachineEdgecnt) (config.edgeMachineIpstrs.length - 1)

/-- The place of an edge among the edges of its machine. -/
def localEdgeIdx (config : EdgeConfig) (edgeIdx : Nat) : Nat :=
  edgeIdx - config.localMachineIdx edgeIdx * config.permachineEdgecnt

/-- The port of a worker. -/
def workerPort (config : EdgeConfig) (edgeIdx workerIdx workercnt : Nat) : Nat :=
  config.edgeCacheServerWorkerRecvreqStartport + config.localEdgeIdx edgeIdx * workercnt + workerIdx

/-- A port of the workers that is verified. -/
def Verified (config : EdgeConfig) (port : Nat) : Prop :=
  config.isSimulation = true ∨ ∀ next ∈ config.startports,
    config.edgeCacheServerWorkerRecvreqStartport < next → port < next

section Hosted

variable {config : EdgeConfig} {edgeIdx workerIdx workercnt : Nat}

theorem portVerification_eq_some_iff {port : Nat} :
    config.portVerification config.edgeCacheServerWorkerRecvreqStartport port = some () ↔
      config.Verified port := by
  rw [portVerification, Verified]
  split
  · next hsimulation => exact iff_of_true rfl (.inl hsimulation)
  · next hsimulation =>
    rw [or_iff_right hsimulation, Option.bind_eq_bind, require_bind_of config.startport_mem]
    exact require_eq_some_iff _ _

/-- Every edge has a machine. -/
theorem exists_ipstr (edgeIdx : Nat) (hmachine : 0 < config.edgeMachineIpstrs.length) :
    ∃ ipstr, config.edgeMachineIpstrs[config.localMachineIdx edgeIdx]? = some ipstr := by
  have hlt : config.localMachineIdx edgeIdx < config.edgeMachineIpstrs.length :=
    Nat.lt_of_le_of_lt (Nat.min_le_right _ _) (Nat.sub_lt hmachine Nat.one_pos)
  exact ⟨_, List.getElem?_eq_getElem hlt⟩

/-- The edges of the machines before that of an edge come before it. -/
theorem localEdgeIdx_add (config : EdgeConfig) (edgeIdx : Nat) :
    config.localMachineIdx edgeIdx * config.permachineEdgecnt + config.localEdgeIdx edgeIdx =
      edgeIdx := by
  have hle : config.localMachineIdx edgeIdx * config.permachineEdgecnt ≤ edgeIdx :=
    Nat.le_trans (Nat.mul_le_mul_right _ (Nat.min_le_left _ _)) (Nat.div_mul_le_self _ _)
  exact Nat.add_sub_of_le hle

/-- A machine other than the last hosts as many edges as the floor division says. -/
theorem localEdgeIdx_lt (hper : 0 < config.permachineEdgecnt)
    (hlast : config.localMachineIdx edgeIdx < config.edgeMachineIpstrs.length - 1) :
    config.localEdgeIdx edgeIdx < config.permachineEdgecnt := by
  have hdiv : config.localMachineIdx edgeIdx = edgeIdx / config.permachineEdgecnt := by
    rw [localMachineIdx] at hlast ⊢
    omega
  have hmod := Nat.mod_lt edgeIdx hper
  have hsplit := Nat.div_add_mod' edgeIdx config.permachineEdgecnt
  rw [localEdgeIdx, hdiv]
  omega

section Hosted

variable (hmachine : 0 < config.edgeMachineIpstrs.length)
  (hhosted : config.edgeMachineIpstrs.length ≤ config.edgecnt)
include hmachine hhosted

theorem permachineEdgecnt_pos : 0 < config.permachineEdgecnt :=
  Nat.div_pos hhosted hmachine

theorem getEdgeIpstr_eq (hedge : edgeIdx < config.edgecnt) :
    config.getEdgeIpstr edgeIdx =
      config.edgeMachineIpstrs[config.localMachineIdx edgeIdx]? := by
  have hper := permachineEdgecnt_pos hmachine hhosted
  rw [getEdgeIpstr, Option.bind_eq_bind, require_bind_of hedge,
    require_bind_of hmachine]
  split
  · next hle =>
    -- as many edges as machines: one edge for each machine
    have hone : config.permachineEdgecnt = 1 := by
      rw [permachineEdgecnt, Nat.le_antisymm hle hhosted, Nat.div_self hmachine]
    have hidx : config.localMachineIdx edgeIdx = edgeIdx := by
      rw [localMachineIdx, hone, Nat.div_one]
      omega
    rw [hidx]
  · simp only [require_bind_of hper]
    split
    · next hge =>
      have hidx : config.localMachineIdx edgeIdx = config.edgeMachineIpstrs.length - 1 :=
        Nat.min_eq_right (by omega)
      rw [hidx]
    · next hlt =>
      have hidx : config.localMachineIdx edgeIdx = edgeIdx / config.permachineEdgecnt :=
        Nat.min_eq_left (by omega)
      rw [hidx]

theorem getNodePort_eq (startPort : Nat) :
    getNodePort startPort edgeIdx config.edgecnt config.edgeMachineIpstrs.length =
      toUint16 (startPort + config.localEdgeIdx edgeIdx) := by
  have hper := permachineEdgecnt_pos hmachine hhosted
  have hsplit := Nat.div_add_mod' edgeIdx config.permachineEdgecnt
  have hmod := Nat.mod_lt edgeIdx hper
  have hcnt : config.edgecnt / config.edgeMachineIpstrs.length = config.permachineEdgecnt := rfl
  simp only [getNodePort, Option.bind_eq_bind, require_bind_of hmachine, hcnt,
    require_bind_of hper]
  split
  · next hlt =>
    have hidx : config.localMachineIdx edgeIdx = edgeIdx / config.permachineEdgecnt :=
      Nat.min_eq_left (by omega)
    have hlocal : edgeIdx - edgeIdx / config.permachineEdgecnt * config.permachineEdgecnt <
        config.permachineEdgecnt := by omega
    rw [require_bind_of hlocal, localEdgeIdx, hidx]
  · next hge =>
    have hidx : config.localMachineIdx edgeIdx = config.edgeMachineIpstrs.length - 1 :=
      Nat.min_eq_right (by omega)
    have hle : config.edgeMachineIpstrs.length * config.permachineEdgecnt ≤ edgeIdx :=
      (Nat.le_div_iff_mul_le hper).1 (Nat.le_of_not_lt hge)
    have hsucc : (config.edgeMachineIpstrs.length - 1) * config.permachineEdgecnt +
        config.permachineEdgecnt = config.edgeMachineIpstrs.length * config.permachineEdgecnt := by
      rw [← Nat.succ_mul, Nat.succ_eq_add_one, Nat.sub_add_cancel hmachine]
    have hlocal : config.permachineEdgecnt ≤
        edgeIdx - (config.edgeMachineIpstrs.length - 1) * config.permachineEdgecnt := by omega
    rw [require_bind_of hlocal, localEdgeIdx, hidx]

/-- The address of a worker whose port is in range. -/
theorem workerRecvreqAddr_eq (hedge : edgeIdx < config.edgecnt) (hworker : workerIdx < workercnt)
    (hport : config.workerPort edgeIdx workerIdx workercnt < 65536)
    (hverified : config.Verified (config.workerPort edgeIdx workerIdx workercnt))
    {ipstr : List UInt8}
    (hipstr : config.edgeMachineIpstrs[config.localMachineIdx edgeIdx]? = some ipstr) :
    config.workerRecvreqAddr edgeIdx workerIdx workercnt =
      some ⟨ipstr, UInt16.ofNat (config.workerPort edgeIdx workerIdx workercnt)⟩ := by
  have hnode : toUint16 (config.edgeCacheServerWorkerRecvreqStartport +
      config.localEdgeIdx edgeIdx) =
      some (config.edgeCacheServerWorkerRecvreqStartport + config.localEdgeIdx edgeIdx) := by
    have hle : config.localEdgeIdx edgeIdx ≤ config.localEdgeIdx edgeIdx * workercnt :=
      Nat.le_mul_of_pos_right _ (Nat.lt_of_le_of_lt (Nat.zero_le _) hworker)
    rw [workerPort] at hport
    exact if_pos (by omega)
  have hfull : toUint16 (config.edgeCacheServerWorkerRecvreqStartport +
      config.localEdgeIdx edgeIdx * workercnt + workerIdx) =
      some (config.workerPort edgeIdx workerIdx workercnt) := if_pos hport
  simp only [workerRecvreqAddr, getEdgeIpstr_eq hmachine hhosted hedge, hipstr,
    getEdgeCacheServerWorkerRecvreqPort, getNodePort_eq hmachine hhosted, hnode, some_bind,
    Nat.add_sub_cancel_left, hfull, portVerification_eq_some_iff.2 hverified, Option.pure_def]

end Hosted

/-- A worker with an address: its edge and its port are in range, every machine has an edge, and the
port is verified. -/
theorem of_workerRecvreqAddr {addr : NetworkAddr}
    (h : config.workerRecvreqAddr edgeIdx workerIdx workercnt = some addr) :
    edgeIdx < config.edgecnt ∧ 0 < config.edgeMachineIpstrs.length ∧
      config.edgeMachineIpstrs.length ≤ config.edgecnt ∧
      config.workerPort edgeIdx workerIdx workercnt < 65536 ∧
      config.Verified (config.workerPort edgeIdx workerIdx workercnt) := by
  simp only [workerRecvreqAddr, getEdgeIpstr, bind_eq_some_iff, require_eq_some_iff] at h
  obtain ⟨ipstr, ⟨-, hedge, -, hmachine, -⟩, port, hport, -⟩ := h
  have hhosted : config.edgeMachineIpstrs.length ≤ config.edgecnt := by
    by_contra hlt
    -- no edge for each machine: the port of a node is not computed
    simp only [getEdgeCacheServerWorkerRecvreqPort, getNodePort, bind_eq_some_iff,
      Nat.div_eq_of_lt (Nat.lt_of_not_le hlt), Nat.lt_irrefl, require_eq_some_iff, false_and,
      and_false, exists_false] at hport
  refine ⟨hedge, hmachine, hhosted, ?_⟩
  simp only [getEdgeCacheServerWorkerRecvreqPort, getNodePort_eq hmachine hhosted,
    bind_eq_some_iff] at hport
  obtain ⟨nodePort, hnode, workerPort, hport, ⟨⟩, hverified, -⟩ := hport
  obtain ⟨rfl, -⟩ := toUint16_eq_some hnode
  obtain ⟨rfl, hlt⟩ := toUint16_eq_some hport
  rw [Nat.add_sub_cancel_left] at hlt hverified
  exact ⟨hlt, portVerification_eq_some_iff.1 hverified⟩

/-- What the inverse computes: the edges before the machine, plus the place of the worker among the
workers of the machine. On a machine other than the last this place must be one of an edge. -/
theorem getEdgeIdx_workerRecvreqAddr (hnodup : config.edgeMachineIpstrs.Nodup)
    (hmachine : 0 < config.edgeMachineIpstrs.length)
    (hhosted : config.edgeMachineIpstrs.length ≤ config.edgecnt)
    (hedge : edgeIdx < config.edgecnt)
    (hworker : workerIdx < workercnt)
    (hport : config.workerPort edgeIdx workerIdx workercnt < 65536)
    (hverified : config.Verified (config.workerPort edgeIdx workerIdx workercnt)) :
    (config.workerRecvreqAddr edgeIdx workerIdx workercnt).bind
        config.getEdgeIdxFromCacheServerWorkerRecvreqAddr =
      if config.localMachineIdx edgeIdx < config.edgeMachineIpstrs.length - 1 ∧
          config.permachineEdgecnt ≤ config.localEdgeIdx edgeIdx * workercnt + workerIdx then none
      else some (config.localMachineIdx edgeIdx * config.permachineEdgecnt +
        (config.localEdgeIdx edgeIdx * workercnt + workerIdx)) := by
  obtain ⟨ipstr, hipstr⟩ := exists_ipstr edgeIdx hmachine
  have hfind : config.edgeMachineIpstrs.findIdx? (fun ip => ip == ipstr) =
      some (config.localMachineIdx edgeIdx) := by
    obtain ⟨hlt, rfl⟩ := List.getElem?_eq_some_iff.1 hipstr
    refine List.findIdx?_eq_some_iff_getElem.2 ⟨hlt, beq_self_eq_true _, fun j hj => ?_⟩
    rw [beq_iff_eq]
    exact fun heq => absurd (hnodup.getElem_inj_iff.1 heq) (Nat.ne_of_lt hj)
  have htoNat : (UInt16.ofNat (config.workerPort edgeIdx workerIdx workercnt)).toNat =
      config.edgeCacheServerWorkerRecvreqStartport +
        (config.localEdgeIdx edgeIdx * workercnt + workerIdx) := by
    rw [UInt16.toNat_ofNat_of_lt' hport, workerPort, Nat.add_assoc]
  have hper := permachineEdgecnt_pos hmachine hhosted
  rw [workerRecvreqAddr_eq hmachine hhosted hedge hworker hport hverified hipstr, Option.bind_some,
    getEdgeIdxFromCacheServerWorkerRecvreqAddr]
  simp only [hfind, htoNat, Nat.add_sub_cancel_left, some_bind, require_bind (Nat.le_add_right _ _),
    require_bind hper, Option.pure_def]
  by_cases hlast : config.localMachineIdx edgeIdx < config.edgeMachineIpstrs.length - 1
  · rw [if_pos hlast]
    by_cases hlocal : config.localEdgeIdx edgeIdx * workercnt + workerIdx < config.permachineEdgecnt
    · rw [if_neg fun h => absurd h.2 (Nat.not_le_of_lt hlocal)]
      simp [require_of hlocal]
    · rw [if_pos ⟨hlast, Nat.le_of_not_lt hlocal⟩]
      simp [require_of_not hlocal]
  · rw [if_neg hlast, if_neg fun h => hlast h.1]

end Hosted

/-! ## The mapping and its inverse -/

/-- The inverse finds the edge of every worker, and distinct workers have distinct addresses. -/
structure AddressesInvertible (config : EdgeConfig) (workercnt : Nat) : Prop where
  inverse : ∀ edgeIdx < config.edgecnt, ∀ workerIdx < workercnt,
    ∃ addr, config.workerRecvreqAddr edgeIdx workerIdx workercnt = some addr ∧
      config.getEdgeIdxFromCacheServerWorkerRecvreqAddr addr = some edgeIdx
  distinct : ∀ edgeIdx < config.edgecnt, ∀ workerIdx < workercnt,
    ∀ edgeIdx' < config.edgecnt, ∀ workerIdx' < workercnt,
    config.workerRecvreqAddr edgeIdx workerIdx workercnt =
      config.workerRecvreqAddr edgeIdx' workerIdx' workercnt →
    edgeIdx = edgeIdx' ∧ workerIdx = workerIdx'

/-- Distinct workers have distinct addresses, with any number of workers for each edge. -/
theorem workerRecvreqAddr_injective {config : EdgeConfig} {workercnt : Nat}
    (hnodup : config.edgeMachineIpstrs.Nodup) (hmachine : 0 < config.edgeMachineIpstrs.length)
    (hhosted : config.edgeMachineIpstrs.length ≤ config.edgecnt)
    (hport : ∀ edgeIdx < config.edgecnt, ∀ workerIdx < workercnt,
      config.workerPort edgeIdx workerIdx workercnt < 65536)
    (hverified : ∀ edgeIdx < config.edgecnt, ∀ workerIdx < workercnt,
      config.Verified (config.workerPort edgeIdx workerIdx workercnt))
    {edgeIdx workerIdx edgeIdx' workerIdx' : Nat} (hedge : edgeIdx < config.edgecnt)
    (hworker : workerIdx < workercnt) (hedge' : edgeIdx' < config.edgecnt)
    (hworker' : workerIdx' < workercnt)
    (heq : config.workerRecvreqAddr edgeIdx workerIdx workercnt =
      config.workerRecvreqAddr edgeIdx' workerIdx' workercnt) :
    edgeIdx = edgeIdx' ∧ workerIdx = workerIdx' := by
  have hp := hport edgeIdx hedge workerIdx hworker
  have hp' := hport edgeIdx' hedge' workerIdx' hworker'
  have hv := hverified edgeIdx hedge workerIdx hworker
  have hv' := hverified edgeIdx' hedge' workerIdx' hworker'
  obtain ⟨ipstr, hipstr⟩ := exists_ipstr edgeIdx hmachine
  obtain ⟨ipstr', hipstr'⟩ := exists_ipstr edgeIdx' hmachine
  rw [workerRecvreqAddr_eq hmachine hhosted hedge hworker hp hv hipstr,
    workerRecvreqAddr_eq hmachine hhosted hedge' hworker' hp' hv' hipstr', Option.some.injEq,
    NetworkAddr.mk.injEq] at heq
  obtain ⟨rfl, hports⟩ := heq
  have hidx : config.localMachineIdx edgeIdx = config.localMachineIdx edgeIdx' := by
    obtain ⟨hlt, hget⟩ := List.getElem?_eq_some_iff.1 hipstr
    obtain ⟨hlt', hget'⟩ := List.getElem?_eq_some_iff.1 hipstr'
    exact hnodup.getElem_inj_iff.1 (hget.trans hget'.symm)
  have hsame : config.workerPort edgeIdx workerIdx workercnt =
      config.workerPort edgeIdx' workerIdx' workercnt := by
    rw [← UInt16.toNat_ofNat_of_lt' hp, ← UInt16.toNat_ofNat_of_lt' hp', hports]
  have hplace : config.localEdgeIdx edgeIdx * workercnt + workerIdx =
      config.localEdgeIdx edgeIdx' * workercnt + workerIdx' := by
    rw [workerPort, workerPort] at hsame
    omega
  -- division by the number of workers gives the place of the edge
  have hpos : 0 < workercnt := Nat.lt_of_le_of_lt (Nat.zero_le _) hworker
  have hdiv : ∀ {n w : Nat}, w < workercnt → (n * workercnt + w) / workercnt = n := by
    intro n w hw
    rw [Nat.mul_comm, Nat.mul_add_div hpos, Nat.div_eq_of_lt hw, Nat.add_zero]
  have hlocal : config.localEdgeIdx edgeIdx = config.localEdgeIdx edgeIdx' := by
    rw [← hdiv (n := config.localEdgeIdx edgeIdx) hworker, hplace, hdiv hworker']
  refine ⟨?_, ?_⟩
  · rw [← localEdgeIdx_add config edgeIdx, hidx, hlocal, localEdgeIdx_add]
  · rw [hlocal] at hplace
    exact Nat.add_left_cancel hplace

/-- The edges on the last machine, which takes the remaining ones. -/
def lastMachineEdgecnt (config : EdgeConfig) : Nat :=
  config.edgecnt - (config.edgeMachineIpstrs.length - 1) * config.permachineEdgecnt

/-- With one worker for each edge, the ports reach as far as there are edges on the last machine. -/
theorem verified_iff {config : EdgeConfig} (hmachine : 0 < config.edgeMachineIpstrs.length)
    (hhosted : config.edgeMachineIpstrs.length ≤ config.edgecnt) :
    (∀ edgeIdx < config.edgecnt, ∀ workerIdx < 1,
      config.Verified (config.workerPort edgeIdx workerIdx 1)) ↔
    config.Verified
      (config.edgeCacheServerWorkerRecvreqStartport + config.lastMachineEdgecnt - 1) := by
  have hper := permachineEdgecnt_pos hmachine hhosted
  have hmul : config.edgeMachineIpstrs.length * config.permachineEdgecnt ≤ config.edgecnt :=
    Nat.mul_div_le _ _
  have hsplit : (config.edgeMachineIpstrs.length - 1) * config.permachineEdgecnt +
      config.permachineEdgecnt = config.edgeMachineIpstrs.length * config.permachineEdgecnt := by
    rw [← Nat.succ_mul, Nat.succ_eq_add_one, Nat.sub_add_cancel hmachine]
  have hlast := lastMachineEdgecnt.eq_def config
  constructor
  · intro h
    have hedge : config.edgecnt - 1 < config.edgecnt := by omega
    have hidx : config.localMachineIdx (config.edgecnt - 1) =
        config.edgeMachineIpstrs.length - 1 := by
      refine Nat.min_eq_right ((Nat.le_div_iff_mul_le hper).2 ?_)
      omega
    -- the last edge has the last place of the last machine
    have hlocal : config.workerPort (config.edgecnt - 1) 0 1 =
        config.edgeCacheServerWorkerRecvreqStartport + config.lastMachineEdgecnt - 1 := by
      rw [workerPort, localEdgeIdx, hidx]
      omega
    rw [← hlocal]
    exact h _ hedge 0 Nat.one_pos
  · rintro (hsimulation | hbelow) edgeIdx hedge workerIdx hworker
    · exact .inl hsimulation
    refine .inr fun next hmem hnext => Nat.lt_of_le_of_lt ?_ (hbelow next hmem hnext)
    have hplace : config.localEdgeIdx edgeIdx < config.lastMachineEdgecnt := by
      by_cases hidx : config.localMachineIdx edgeIdx < config.edgeMachineIpstrs.length - 1
      · have hlt := localEdgeIdx_lt hper hidx
        omega
      · have heq : config.localMachineIdx edgeIdx = config.edgeMachineIpstrs.length - 1 :=
          Nat.le_antisymm (Nat.min_le_right _ _) (Nat.le_of_not_lt hidx)
        rw [localEdgeIdx, heq]
        omega
    rw [workerPort]
    omega

/-- With distinct machine addresses and ports within 16 bits, the mapping is inverted iff there are
as many edges as machines or more, every edge has one worker, and the ports of the edges on the last
machine are below the next start port. -/
theorem addresses_invertible_iff (config : EdgeConfig) (workercnt : Nat)
    (hedgecnt : 0 < config.edgecnt) (hnodup : config.edgeMachineIpstrs.Nodup)
    (hmachine : 0 < config.edgeMachineIpstrs.length) (hworkercnt : 0 < workercnt)
    (hport : ∀ edgeIdx < config.edgecnt, ∀ workerIdx < workercnt,
      config.workerPort edgeIdx workerIdx workercnt < 65536) :
    AddressesInvertible config workercnt ↔
      config.edgeMachineIpstrs.length ≤ config.edgecnt ∧ workercnt = 1 ∧ config.Verified
        (config.edgeCacheServerWorkerRecvreqStartport + config.lastMachineEdgecnt - 1) := by
  constructor
  · intro h
    obtain ⟨addr, haddr, -⟩ := h.inverse 0 hedgecnt 0 hworkercnt
    obtain ⟨-, -, hhosted, -, -⟩ := of_workerRecvreqAddr haddr
    have hverified : ∀ edgeIdx < config.edgecnt, ∀ workerIdx < workercnt,
        config.Verified (config.workerPort edgeIdx workerIdx workercnt) := by
      intro edgeIdx hedge workerIdx hworker
      obtain ⟨addr, haddr, -⟩ := h.inverse edgeIdx hedge workerIdx hworker
      obtain ⟨-, -, -, -, hverified⟩ := of_workerRecvreqAddr haddr
      exact hverified
    have hone : workercnt = 1 := by
      refine Nat.le_antisymm (Nat.le_of_not_lt fun htwo => ?_) hworkercnt
      -- the second worker of the first edge is taken for the first worker of another edge
      obtain ⟨addr, haddr, hedge⟩ := h.inverse 0 hedgecnt 1 htwo
      have hinverse := getEdgeIdx_workerRecvreqAddr hnodup hmachine hhosted hedgecnt htwo
        (hport 0 hedgecnt 1 htwo) (hverified 0 hedgecnt 1 htwo)
      rw [haddr, Option.bind_some, hedge] at hinverse
      split at hinverse
      · cases hinverse
      · rw [Option.some.injEq] at hinverse
        omega
    rw [hone] at hverified
    exact ⟨hhosted, hone, (verified_iff hmachine hhosted).1 hverified⟩
  · rintro ⟨hhosted, rfl, hlast⟩
    have hverified := (verified_iff hmachine hhosted).2 hlast
    refine ⟨fun edgeIdx hedge workerIdx hworker => ?_,
      fun edgeIdx hedge workerIdx hworker edgeIdx' hedge' workerIdx' hworker' heq =>
        workerRecvreqAddr_injective hnodup hmachine hhosted hport hverified hedge hworker hedge'
          hworker' heq⟩
    have hp := hport edgeIdx hedge workerIdx hworker
    have hv := hverified edgeIdx hedge workerIdx hworker
    have hinverse := getEdgeIdx_workerRecvreqAddr hnodup hmachine hhosted hedge hworker hp hv
    obtain ⟨ipstr, hipstr⟩ := exists_ipstr edgeIdx hmachine
    rw [workerRecvreqAddr_eq hmachine hhosted hedge hworker hp hv hipstr] at hinverse ⊢
    refine ⟨_, rfl, hinverse.trans ?_⟩
    have hzero : workerIdx = 0 := by omega
    have hper := permachineEdgecnt_pos hmachine hhosted
    rw [hzero, Nat.mul_one, Nat.add_zero, localEdgeIdx_add, if_neg]
    rintro ⟨hlast, hle⟩
    exact absurd (localEdgeIdx_lt hper hlast) (Nat.not_lt_of_le hle)

/-- Edges on the given machines, with the start ports of two components. -/
def onMachines (edgecnt : Nat) (edgeMachineIpstrs : List (List UInt8)) : EdgeConfig where
  isSimulation := false
  edgecnt := edgecnt
  edgeMachineIpstrs := edgeMachineIpstrs
  edgeCacheServerWorkerRecvreqStartport := 4900
  startports := [4900, 5000]
  startport_mem := List.mem_cons_self

/-- Two machines and five edges. -/
def fiveEdges : EdgeConfig := onMachines 5 [[1], [2]]

/-- With two workers for each edge, the second worker of the first edge is taken for a worker of the
second edge. -/
theorem not_always_invertible : ¬ ∀ (config : EdgeConfig) (workercnt : Nat),
    0 < config.edgecnt → config.edgeMachineIpstrs.Nodup → 0 < config.edgeMachineIpstrs.length →
    0 < workercnt → (∀ edgeIdx < config.edgecnt, ∀ workerIdx < workercnt,
      config.workerPort edgeIdx workerIdx workercnt < 65536) →
    AddressesInvertible config workercnt := by
  intro h
  obtain ⟨addr, haddr, hedge⟩ := (h fiveEdges 2 (by decide) (by decide) (by decide)
    (by decide) (by decide)).inverse 0 (by decide) 1 (by decide)
  have hcomputed : (fiveEdges.workerRecvreqAddr 0 1 2).bind
      fiveEdges.getEdgeIdxFromCacheServerWorkerRecvreqAddr = some 1 := by
    decide
  rw [haddr, Option.bind_some, hedge] at hcomputed
  cases hcomputed

/-- Five edges with one worker each. -/
theorem addresses_invertible_iff_fiveEdges :
    AddressesInvertible fiveEdges 1 ↔ 2 ≤ 5 ∧ 1 = 1 ∧ fiveEdges.Verified 4902 :=
  addresses_invertible_iff fiveEdges 1 (by decide) (by decide) (by decide) (by decide)
    (by decide)

end EdgeConfig

end Covered.Edge
