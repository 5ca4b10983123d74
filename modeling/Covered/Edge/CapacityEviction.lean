import Covered.Cache.AdaptsizeRepresentation
import Covered.Cache.ArcEviction
import Covered.Cache.LacacheRepresentation
import Covered.Cache.S3fifoEviction

/-!
# Evicting down to the capacity

`evictForCapacity_` evicts as long as the size of the cache exceeds its capacity. Three of the four
policies here keep data of objects that are no longer cached, and count it: the ghosts of ARC, the
arrivals of LA-Cache and the statistics of AdaptSize. An eviction does not take them off, so the
loop may run out of objects above the capacity, and then the process ends. `reachesCapacity_of_runs`
says when it does not. S3-FIFO has no more ghosts than objects and always gets down to its capacity.

The size is that of the local cache alone.
-/

set_option autoImplicit false

namespace Covered.Edge

open Cache Common Lib Lib.Checked Lib.Execution

section Loop

variable {σ : Type} {getSizeForCapacity : σ → Nat} {evict : σ → Option σ} {capacityBytes : Nat}
  {s t : σ}

/-- `evictForCapacity_`: an eviction as long as the size exceeds the capacity. -/
def evictForCapacity (getSizeForCapacity : σ → Nat) (evict : σ → Option σ) (capacityBytes : Nat) :
    Nat → σ → Option σ :=
  whileLoop (fun s => decide (getSizeForCapacity s > capacityBytes)) evict

/-- The loop ends, and then the size is at most the capacity. -/
def ReachesCapacity (getSizeForCapacity : σ → Nat) (evict : σ → Option σ) (capacityBytes : Nat)
    (s : σ) : Prop :=
  ∃ fuel t, evictForCapacity getSizeForCapacity evict capacityBytes fuel s = some t ∧
    getSizeForCapacity t ≤ capacityBytes

theorem reachesCapacity_of_eq_some {fuel : Nat}
    (h : evictForCapacity getSizeForCapacity evict capacityBytes fuel s = some t) :
    ReachesCapacity getSizeForCapacity evict capacityBytes s := by
  obtain ⟨-, hsmall⟩ :=
    whileLoop_invariant (P := fun _ => True) (fun _ _ _ _ _ => trivial) trivial h
  rw [decide_eq_false_iff_not, Nat.not_lt] at hsmall
  exact ⟨fuel, t, h, hsmall⟩

theorem reachesCapacity_iff {P : σ → Prop} {count : σ → Nat}
    (h : Drains P evict count getSizeForCapacity) (hs : P s) :
    ReachesCapacity getSizeForCapacity evict capacityBytes s ↔
      ∃ t, Emptied evict count s t ∧ getSizeForCapacity t ≤ capacityBytes := by
  rw [← h.ends_iff hs]
  constructor
  · rintro ⟨fuel, t, hloop, -⟩
    exact ⟨fuel, t, hloop⟩
  · rintro ⟨fuel, t, hloop⟩
    exact reachesCapacity_of_eq_some hloop

/-- Where all that is left has the size `n`. -/
theorem reachesCapacity_iff_le {P : σ → Prop} {count : σ → Nat} {n : Nat}
    (h : Drains P evict count getSizeForCapacity) (hs : P s)
    (hsize : ∀ t, Emptied evict count s t → getSizeForCapacity t = n) :
    ReachesCapacity getSizeForCapacity evict capacityBytes s ↔ n ≤ capacityBytes := by
  rw [reachesCapacity_iff h hs]
  constructor
  · rintro ⟨t, hempty, hle⟩
    exact hsize t hempty ▸ hle
  · intro hle
    obtain ⟨t, hempty, -, -⟩ := h.exists_emptied hs
    exact ⟨t, hempty, hsize t hempty ▸ hle⟩

end Loop

/-! ## The policies -/

open Arc (ArcCachePolicy)
open S3fifo (S3fifoCachePolicy)
open Lacache (LACache)
open Adaptsize (AdaptSizeCache storedOrder)
open Doubles (rationals)

variable {capacityBytes uninitialised : Nat} {tr : List (Arc.Action × Arc.Output)}

/-- ARC gets down to its capacity iff the ghosts that are left do not exceed it. -/
theorem arc_reachesCapacity_iff {d : Arc.Driven}
    (h : Runs Arc.step Arc.Meets (Arc.create capacityBytes uninitialised) tr d) (c : Nat) :
    ReachesCapacity ArcCachePolicy.size ArcCachePolicy.evict c d.cache ↔
      ∃ t, Emptied ArcCachePolicy.evict ArcCachePolicy.objects d.cache t ∧ t.size ≤ c :=
  reachesCapacity_iff Arc.drains (Arc.canEvict_of_runs h)

/-- ARC gets down to every capacity that its size without the cached values does not exceed. -/
theorem arc_reachesCapacity_of_le {d : Arc.Driven}
    (h : Runs Arc.step Arc.Meets (Arc.create capacityBytes uninitialised) tr d) {c : Nat}
    (hmetadata : d.cache.metadataBytes ≤ c) :
    ReachesCapacity ArcCachePolicy.size ArcCachePolicy.evict c d.cache := by
  have hcan := Arc.canEvict_of_runs h
  obtain ⟨t, hempty, -, -⟩ := Arc.drains.exists_emptied hcan
  exact (arc_reachesCapacity_iff h c).2 ⟨t, hempty, (hcan.size_emptied_le hempty).trans hmetadata⟩

/-- S3-FIFO gets down to its capacity. -/
theorem s3fifo_reachesCapacity {freedLength : S3fifo.FreedLength}
    {tr : List (S3fifo.Action × S3fifo.Output)} {s : S3fifoCachePolicy}
    (hfreed : S3fifo.ReadsBack freedLength)
    (h : Runs (S3fifo.step freedLength) S3fifo.Promised (S3fifo.create capacityBytes) tr s) :
    ReachesCapacity S3fifoCachePolicy.getSizeForCapacity (S3fifoCachePolicy.evict freedLength)
      capacityBytes s := by
  obtain ⟨t, hloop⟩ := (S3fifo.canEvict_of_runs hfreed h).ends hfreed
  exact reachesCapacity_of_eq_some hloop

section Doubles

variable {F : Type} [Doubles F]

/-- LA-Cache gets down to a capacity iff its size without the cached objects does not exceed it. -/
theorem lacache_reachesCapacity_iff {sampler : Lacache.Sampler}
    {tr : List (Lacache.Action × Lacache.Output)} {s : LACache F}
    (h : Runs (Lacache.step sampler) Lacache.Promised Lacache.create tr s) (c : Nat) :
    ReachesCapacity LACache.getSizeForCapacity (LACache.evict sampler) c s ↔
      s.metadataBytes ≤ c := by
  have hinv := Lacache.inv_of_runs h
  exact reachesCapacity_iff_le (Lacache.drains sampler) hinv fun _ hempty =>
    hinv.size_emptied hempty

/-- AdaptSize gets down to a capacity iff its size without the cached objects does not exceed it. -/
theorem adaptsize_reachesCapacity_iff {platform : Adaptsize.Platform F} {cacheSize : Nat}
    {tr : List (Adaptsize.Action × Adaptsize.Output)} {s : AdaptSizeCache F}
    (h : Runs (Adaptsize.step platform) anyAction (Adaptsize.create cacheSize) tr s) (c : Nat) :
    ReachesCapacity AdaptSizeCache.getSizeForCapacity AdaptSizeCache.evictOldest c s ↔
      s.metadataBytes ≤ c := by
  have hinv := Adaptsize.inv_of_runs h
  exact reachesCapacity_iff_le Adaptsize.drains hinv fun _ hempty => hinv.size_emptied hempty

end Doubles

/-- When the loop of evictions gets down to the capacity: for ARC iff the ghosts that are left when
no object is cached do not exceed it, in particular if the size without the cached values does not;
for S3-FIFO always, as long as an erased ghost still has its length; for LA-Cache and AdaptSize iff
the size without the cached objects does not exceed it. -/
theorem reachesCapacity_of_runs (capacityBytes : Nat) : (∀ uninitialised tr d,
      Runs Arc.step Arc.Meets (Arc.create capacityBytes uninitialised) tr d →
        (ReachesCapacity ArcCachePolicy.size ArcCachePolicy.evict capacityBytes d.cache ↔
          ∃ t, Emptied ArcCachePolicy.evict ArcCachePolicy.objects d.cache t ∧
            t.size ≤ capacityBytes) ∧
        (d.cache.metadataBytes ≤ capacityBytes →
          ReachesCapacity ArcCachePolicy.size ArcCachePolicy.evict capacityBytes d.cache)) ∧
    (∀ freedLength tr s, S3fifo.ReadsBack freedLength →
      Runs (S3fifo.step freedLength) S3fifo.Promised (S3fifo.create capacityBytes) tr s →
        ReachesCapacity S3fifoCachePolicy.getSizeForCapacity
          (S3fifoCachePolicy.evict freedLength) capacityBytes s) ∧
    (∀ (F : Type) [Doubles F] sampler tr (s : LACache F),
      Runs (Lacache.step sampler) Lacache.Promised Lacache.create tr s →
        (ReachesCapacity LACache.getSizeForCapacity (LACache.evict sampler) capacityBytes s ↔
          s.metadataBytes ≤ capacityBytes)) ∧
    (∀ (F : Type) [Doubles F] platform cacheSize tr (s : AdaptSizeCache F),
      Runs (Adaptsize.step platform) anyAction (Adaptsize.create cacheSize) tr s →
        (ReachesCapacity AdaptSizeCache.getSizeForCapacity AdaptSizeCache.evictOldest capacityBytes
            s ↔ s.metadataBytes ≤ capacityBytes)) := by
  refine ⟨fun uninitialised tr d h => ⟨?_, ?_⟩, fun _ _ _ hfreed h => ?_,
    fun F _ sampler tr s h => ?_, fun F _ platform cacheSize tr s h => ?_⟩
  · exact arc_reachesCapacity_iff h capacityBytes
  · exact arc_reachesCapacity_of_le h
  · exact s3fifo_reachesCapacity hfreed h
  · exact lacache_reachesCapacity_iff h capacityBytes
  · exact adaptsize_reachesCapacity_iff h capacityBytes

/-! ## Concrete runs -/

/-- A key of eight bytes. -/
def keyOf (n : UInt8) : Key := ⟨[n, 0, 0, 0, 0, 0, 0, 0]⟩

/-- Four small objects, each admitted at its first access. -/
def fourObjects : List Arc.Action :=
  [.get (keyOf 1), .admitObject (keyOf 1) (.ofSize 1), .get (keyOf 2),
    .admitObject (keyOf 2) (.ofSize 1), .get (keyOf 3), .admitObject (keyOf 3) (.ofSize 1),
    .get (keyOf 4), .admitObject (keyOf 4) (.ofSize 1)]

/-- Of four objects of 30 bytes in a cache of 100 bytes evictions leave four ghosts of 29 bytes, and
no victim. -/
theorem ghosts_exceed_capacity : ¬ ∀ capacityBytes uninitialised tr d,
    Runs Arc.step Arc.Promised (Arc.create capacityBytes uninitialised) tr d →
      ReachesCapacity ArcCachePolicy.size ArcCachePolicy.evict capacityBytes d.cache := by
  intro h
  have hexec : (exec Arc.step Arc.Promised (Arc.create 100 0) fourObjects).any (fun d =>
      (passes (fun s => decide (s.size > 100)) ArcCachePolicy.evict 4 d.cache).any fun s =>
        s.evict.isNone) = true := by
    decide +kernel
  obtain ⟨tr, d, hrun, -, hpasses⟩ := exists_runs_of_any hexec
  obtain ⟨s, hs, hnone⟩ := Option.any_eq_true _ _ |>.1 hpasses
  obtain ⟨fuel, t, hloop, -⟩ := h 100 0 tr d hrun
  rw [evictForCapacity, whileLoop_eq_none hs (Option.isNone_iff_eq_none.1 hnone)] at hloop
  cases hloop

/-- A sample of the first objects. -/
def firstObjects : Lacache.Sampler where
  sample _ infos := infos.take Lacache.sampleSize
  sublist _ infos := List.take_sublist _ infos
  length _ _ := List.length_take

/-- Two objects of which the capacity holds one. -/
def twoObjects : List Arc.Action :=
  [.get (keyOf 1), .admitObject (keyOf 1) (.ofSize 20), .get (keyOf 2),
    .admitObject (keyOf 2) (.ofSize 20)]

/-- A small object that is replaced by one larger than the capacity. -/
def growingObject : List S3fifo.Action :=
  [.admitObject (keyOf 1) (.ofSize 1), .update (keyOf 1) (.ofSize 200)]

def missAndAdmit : List Lacache.Action :=
  [.get (keyOf 1), .admitObject (keyOf 1) (.ofSize 50) 3]

def admitAndReplace : List Adaptsize.Action :=
  [.admitObject (keyOf 1) (.ofSize 20), .lookup (keyOf 1), .update (keyOf 1) (.ofSize 40)]

/-- Every policy exceeds its capacity in one of the runs and gets down to it. -/
theorem reachesCapacity_small_runs :
    (∃ tr d, Runs Arc.step Arc.Meets (Arc.create 60 0) tr d ∧ d.cache.size > 60 ∧
      ReachesCapacity ArcCachePolicy.size ArcCachePolicy.evict 60 d.cache) ∧
    (∃ tr s, Runs (S3fifo.step S3fifo.keptLength) S3fifo.Promised (S3fifo.create 100) tr s ∧
      s.getSizeForCapacity > 100 ∧
      ReachesCapacity S3fifoCachePolicy.getSizeForCapacity
        (S3fifoCachePolicy.evict S3fifo.keptLength) 100 s) ∧
    (∃ tr s, Runs (@Lacache.step ℚ rationals firstObjects) Lacache.Promised Lacache.create tr s ∧
      s.getSizeForCapacity > 60 ∧
      ReachesCapacity LACache.getSizeForCapacity
        (@LACache.evict ℚ rationals firstObjects) 60 s) ∧
    (∃ tr s, Runs (@Adaptsize.step ℚ rationals storedOrder) anyAction
        (@Adaptsize.create ℚ rationals 100) tr s ∧
      s.getSizeForCapacity > 100 ∧
      ReachesCapacity AdaptSizeCache.getSizeForCapacity AdaptSizeCache.evictOldest 100 s) := by
  refine ⟨?_, ?_, ?_, ?_⟩
  · have hexec : (exec Arc.step Arc.Meets (Arc.create 60 0) twoObjects).any (fun d =>
        decide (d.cache.size > 60 ∧ d.cache.metadataBytes ≤ 60)) = true := by
      decide +kernel
    obtain ⟨tr, d, hrun, -, hd⟩ := exists_runs_of_any hexec
    obtain ⟨hlarge, hmetadata⟩ := of_decide_eq_true hd
    exact ⟨tr, d, hrun, hlarge, ((reachesCapacity_of_runs 60).1 0 tr d hrun).2 hmetadata⟩
  · have hexec : (exec (S3fifo.step S3fifo.keptLength) S3fifo.Promised (S3fifo.create 100)
        growingObject).any (fun s => decide (s.getSizeForCapacity > 100)) = true := by
      decide +kernel
    obtain ⟨tr, s, hrun, -, hlarge⟩ := exists_runs_of_any hexec
    exact ⟨tr, s, hrun, of_decide_eq_true hlarge,
      (reachesCapacity_of_runs 100).2.1 S3fifo.keptLength tr s S3fifo.readsBack_keptLength hrun⟩
  · have hexec : (exec (@Lacache.step ℚ rationals firstObjects) Lacache.Promised Lacache.create
        missAndAdmit).any (fun s => decide (s.getSizeForCapacity > 60 ∧ s.metadataBytes ≤ 60)) =
          true := by
      decide +kernel
    obtain ⟨tr, s, hrun, -, hs⟩ := exists_runs_of_any hexec
    obtain ⟨hlarge, hmetadata⟩ := of_decide_eq_true hs
    have hall := (reachesCapacity_of_runs 60).2.2.1
    exact ⟨tr, s, hrun, hlarge, (@hall ℚ rationals firstObjects tr s hrun).2 hmetadata⟩
  · have hexec : (exec (@Adaptsize.step ℚ rationals storedOrder) anyAction
        (@Adaptsize.create ℚ rationals 100) admitAndReplace).any (fun s =>
          decide (s.getSizeForCapacity > 100 ∧ s.metadataBytes ≤ 100)) = true := by
      decide +kernel
    obtain ⟨tr, s, hrun, -, hs⟩ := exists_runs_of_any hexec
    obtain ⟨hlarge, hmetadata⟩ := of_decide_eq_true hs
    have hall := (reachesCapacity_of_runs 100).2.2.2
    exact ⟨tr, s, hrun, hlarge, (@hall ℚ rationals storedOrder 100 tr s hrun).2 hmetadata⟩

end Covered.Edge
