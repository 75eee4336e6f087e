import MappedStorage.Main
import MappedStorage.Proofs.Capacity
import MappedStorage.Proofs.CapacityOnWords
import MappedStorage.Proofs.Keyed
import MappedStorage.Proofs.Locking.Atomicity
import MappedStorage.Proofs.Locking.Entries
import MappedStorage.Proofs.Locking.Exclusion
import MappedStorage.Proofs.Locking.Holder
import MappedStorage.Proofs.Locking.Image
import MappedStorage.Proofs.Locking.Refusals
import MappedStorage.Proofs.Locking.Run
import MappedStorage.Proofs.Locking.Slots
import MappedStorage.Proofs.Locking.Table
import MappedStorage.Proofs.MachineWords
import MappedStorage.Proofs.Mapping.Attempts
import MappedStorage.Proofs.Mapping.Closing
import MappedStorage.Proofs.Mapping.Extent
import MappedStorage.Proofs.Mapping.FailedGrowth
import MappedStorage.Proofs.Mapping.FailedOpening
import MappedStorage.Proofs.Mapping.FlushedRange
import MappedStorage.Proofs.Mapping.GeometricGrowth
import MappedStorage.Proofs.Mapping.Granules
import MappedStorage.Proofs.Mapping.GrowingArray
import MappedStorage.Proofs.Mapping.Holding
import MappedStorage.Proofs.Mapping.Ledger
import MappedStorage.Proofs.Mapping.Lifetime
import MappedStorage.Proofs.Mapping.Mapper
import MappedStorage.Proofs.Mapping.Medium
import MappedStorage.Proofs.Mapping.NewFile
import MappedStorage.Proofs.Mapping.Padding
import MappedStorage.Proofs.Mapping.Region
import MappedStorage.Proofs.Mapping.TrackedFile
import MappedStorage.Proofs.Mapping.Twins
import MappedStorage.Proofs.Naming.Canonical
import MappedStorage.Proofs.Naming.FullName
import MappedStorage.Proofs.Naming.Path
import MappedStorage.Proofs.Naming.Placement
import MappedStorage.Proofs.Provider.ClosedFiles
import MappedStorage.Proofs.Provider.Closing
import MappedStorage.Proofs.Provider.Conservation
import MappedStorage.Proofs.Provider.Counts
import MappedStorage.Proofs.Provider.Extent
import MappedStorage.Proofs.Provider.FailedOpening
import MappedStorage.Proofs.Provider.Frame
import MappedStorage.Proofs.Provider.Holding
import MappedStorage.Proofs.Provider.Isolation
import MappedStorage.Proofs.Provider.Lockers
import MappedStorage.Proofs.Provider.OpenFile
import MappedStorage.Proofs.Provider.OpenRegions
import MappedStorage.Proofs.Provider.RegionsInUse
import MappedStorage.Proofs.Provider.Registry
import MappedStorage.Proofs.Provider.Renewal
import MappedStorage.Proofs.Provider.Resources
import MappedStorage.Proofs.Provider.Retention
import MappedStorage.Proofs.Provider.Run
import MappedStorage.Proofs.Provider.Separation
import MappedStorage.Proofs.Provider.Settings
import MappedStorage.Proofs.Session
import MappedStorage.Proofs.Store.Basic
import MappedStorage.Proofs.Store.Durability
import MappedStorage.Proofs.Store.FailedRequests
import MappedStorage.Proofs.Store.Holding
import MappedStorage.Proofs.Store.IndexContents
import MappedStorage.Proofs.Store.IndexRun
import MappedStorage.Proofs.Store.Medium
import MappedStorage.Proofs.Store.Retention
import MappedStorage.Proofs.Store.Run
import MappedStorage.Proofs.Store.SharedIndex
import MappedStorage.Proofs.Store.Sharing
import MappedStorage.Proofs.Store.Slots
import MappedStorage.Proofs.Store.StaleSlots
import MappedStorage.Proofs.Store.Table
import MappedStorage.Proofs.Store.Views
import MappedStorage.Proofs.System.AddressSpace
import MappedStorage.Proofs.System.Contents
import MappedStorage.Proofs.System.Lengths
import MappedStorage.Proofs.System.Resolution
import MappedStorage.Proofs.System.Tree
import MappedStorage.Proofs.System.TreeRequests
import MappedStorage.Proofs.System.Vacancy
import MappedStorage.Proofs.System.Walks
import MappedStorage.Proofs.Text.Numeral
import MappedStorage.Proofs.Text.Utf8
import MappedStorage.Provider.Registry
import MappedStorage.Session
import MappedStorage.Store.Handle
