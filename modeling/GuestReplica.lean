import GuestReplica.Describe
import GuestReplica.Recording
import GuestReplica.Device.Simulated
import GuestReplica.Proofs.Handles
import GuestReplica.Proofs.Staging.Invariant
import GuestReplica.Proofs.Staging.Runs
import GuestReplica.Proofs.Staging.Reuse
import GuestReplica.Proofs.Upload.Steps
import GuestReplica.Proofs.Replica.Steps
import GuestReplica.Proofs.Staging.Allocations
import GuestReplica.Proofs.Cuts
import GuestReplica.Proofs.Upload.Pieces
import GuestReplica.Proofs.Upload.Progress
import GuestReplica.Proofs.Replica.Runs
import GuestReplica.Proofs.Replica.Uploads
import GuestReplica.Proofs.Replica.Tiling
import GuestReplica.Proofs.Replica.Destinations
import GuestReplica.Proofs.Execution
import GuestReplica.Proofs.Upload.Loads
import GuestReplica.Proofs.Upload.Deliveries
import GuestReplica.Proofs.Replica.Contents
import GuestReplica.Proofs.Access
import GuestReplica.Proofs.Replica.Declarations
import GuestReplica.Proofs.Replica.Availability
import GuestReplica.Proofs.Staging.Capacity
import GuestReplica.Proofs.Upload.Capacity
import GuestReplica.Proofs.Replica.Capacity
import GuestReplica.Proofs.Staging.Backing
import GuestReplica.Proofs.Staging.Flushing
import GuestReplica.Proofs.Access.Transitions
import GuestReplica.Proofs.Staging.Places
import GuestReplica.Proofs.Objects
import GuestReplica.Proofs.Store.Objects
import GuestReplica.Proofs.Staging.Objects
import GuestReplica.Proofs.Upload.Objects
import GuestReplica.Proofs.Replica.Closed
import GuestReplica.Proofs.Replica.Objects
import GuestReplica.Proofs.Recording
import GuestReplica.Proofs.Store.Backing
import GuestReplica.Proofs.Store.Fallback
import GuestReplica.Proofs.Upload.Exactness
import GuestReplica.Proofs.Replica.Limits
import GuestReplica.Proofs.Staging.Failures
import GuestReplica.Proofs.Staging.Order
import GuestReplica.Proofs.Staging.Fit
import GuestReplica.Proofs.Upload.Batches
import GuestReplica.Proofs.Replica.Batches
import GuestReplica.Proofs.Replica.Barriers
import GuestReplica.Proofs.Staging.FlushRanges
import GuestReplica.Proofs.Staging.Limits
import GuestReplica.Proofs.Staging.Renewal
import GuestReplica.Proofs.MemoryTypes
import GuestReplica.Proofs.Store.MemoryTypes
import GuestReplica.Proofs.Staging.MemoryTypes
import GuestReplica.Proofs.Replica.MemoryTypes
import GuestReplica.Proofs.Staging.Completions
import GuestReplica.Proofs.Replica.Completions
