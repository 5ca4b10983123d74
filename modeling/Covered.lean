import Covered.Common.SizeCounters
import Covered.Common.DynamicArrayBounds
import Covered.Concurrency.RingBuffer
import Covered.Network.FragmentTiling
import Covered.Network.Arrivals
import Covered.Network.PropagationSimulator
import Covered.Network.LinkLatency
import Covered.Cooperation.WriteLockSafety
import Covered.Popularity.ExactAggregation
import Covered.Victim.PopularityDrift
import Covered.Victim.BitmapWellFormed
import Covered.Victim.References
import Covered.Victim.SizeAccounting
import Covered.Victim.Snapshot
import Covered.Victim.Agreement
import Covered.Victim.Enforcement
import Covered.Cache.ValiditySoundness
import Covered.Cache.AuxiliaryMaps
import Covered.Cache.MetadataConsistency
import Covered.Cache.UncachedBudget
import Covered.Cache.LocalCacheSnapshot
import Covered.Cache.GreedyDualAging
import Covered.Cache.WtinylfuRepresentation
import Covered.Cache.CountingBloomFilter
import Covered.Cache.BestguessRepresentation
import Covered.Cache.PolicyContents
import Covered.Edge.Coherence
import Covered.Edge.DirectoryCoverage
import Covered.Edge.CachedDirectories
import Covered.Edge.NeighborCached
import Covered.Edge.Piggybacking
import Covered.Edge.Unblocking
import Covered.Cache.AdaptsizeBookkeeping
import Covered.Edge.CapacityEviction
import Covered.Edge.CoveredEviction
import Covered.Edge.WeightTuning
import Covered.Simulator.EvictionCostAgreement
import Covered.Simulator.PlacementCalculation
import Covered.Placement.CoveredCacheManager
import Covered.Cache.AffectVictimTracker
import Covered.Popularity.AggregatorSnapshot
import Covered.Popularity.GlobalCachedStatus
import Covered.Message.MessageDelivery
import Covered.Edge.BandwidthConservation
import Covered.Cooperation.DirectoryChanges
import Covered.Edge.HybridFetching
