import GuestReplica.Store
import GuestReplica.Upload

set_option autoImplicit false

/-!
# The replica: the device's copy of guest memory

The whole physical memory of a guest is one buffer on the device.  Pages of the
guest are uploaded through a staging pool, and each use of the buffer is declared
beforehand, which records the barrier that the use needs.  A replica that was
shut down has no buffer and no staging memory any more.
-/

namespace GuestReplica

/-- What a replica is like. -/
structure Config where
  /-- a guest page has `2 ^ pageBits` bytes -/
  pageBits : Nat := 12
  memoryTypes : MemoryTypes := default
  tessellation : Bool := false
  /-- the device can bind memory to buffers piece by piece -/
  sparseBinding : Bool := false
  stagingPageSize : Nat := 2 <<< 20
  maxStagingPages : Option Nat := none
  flushUnit : Nat := 256
  deriving DecidableEq, Repr, Inhabited

/-- The device copy of a guest's physical memory. -/
structure Replica where
  store : Option Store
  pool : Option Staging.Pool
  access : Access.Tracker
  pageBits : Nat
  tessellation : Bool
  deriving DecidableEq, Repr, Inhabited

namespace Config

/-- The strategies to try for the buffer, the best one first. -/
def strategies (config : Config) : List Strategy :=
  if config.sparseBinding then [.sparse, .plain] else [.plain]

/-- The staging pool of a replica.  Its pages are made of whole guest pages. -/
def staging? (config : Config) : Except Violation Staging.Config :=
  match Size.roundUp? (max config.stagingPageSize 1) (1 <<< config.pageBits) with
  | none => .error .sizeOverflow
  | some pageSize =>
    .ok
      { pageSize := pageSize
        hostVisible := config.memoryTypes.hostVisible
        hostCoherent := config.memoryTypes.hostCoherent
        flushUnit := config.flushUnit
        maxPages := config.maxStagingPages }

/-- The largest binary logarithm of a guest page size. -/
def maxPageBits : Nat := 30

end Config

namespace Replica

variable {τ ε σ : Type}

/-- The size of the guest's physical memory. -/
def size : Nat := 512 <<< 20

/-! ## Creation -/

/-- Creates the buffer of a replica and a staging pool without pages. -/
def create (d : Device σ) (config : Config) : Action τ CreationError σ Replica := do
  if Config.maxPageBits < config.pageBits then
    Action.violate .guestPageTooLarge
  else
    match ← (Store.create d size config.strategies
        config.memoryTypes.deviceLocal).attempt with
    | .error failure =>
      Action.emit [.notice (.creationFailed size failure)]
      Action.fail failure
    | .ok store =>
      let staging ← Action.check config.staging?
      let pool ← Action.check (Staging.Pool.new staging)
      return {
        store := some store
        pool := some pool
        access := Access.Tracker.new size
        pageBits := config.pageBits
        tessellation := config.tessellation }

/-- The buffer on the device; none after the replica was shut down. -/
def buffer (replica : Replica) : Handle :=
  match replica.store with
  | some store => store.buffer
  | none => Handle.null

/-! ## Use of the buffer -/

/-- Declares that the commands recorded next use the buffer in `mode` and write
the bytes of `written`.  Records the barrier that this needs, if any. -/
def declare (mode : Access.Mode) (written : Span) : Action Replica ε σ Unit := do
  let replica ← Action.subject
  let (transition, access) ← Action.check (replica.access.declare mode written)
  Action.update fun r => { r with access := access }
  match transition with
  | none => return ()
  | some transition =>
    Action.emit [.command (.barrier
      (Barrier.ofTransition transition replica.tessellation replica.buffer))]

/-- Works on the staging pool, unless the replica was shut down. -/
def withPool {α : Type} (whenShutDown : Action Replica ε σ α)
    (work : Action Staging.Pool ε σ α) : Action Replica ε σ α := do
  let replica ← Action.subject
  match replica.pool with
  | none => whenShutDown
  | some pool => work.focus pool fun pool r => { r with pool := some pool }

/-- Copies guest pages into the buffer.  The ranges have to be sorted and must not
overlap.  If staging memory runs out, the pages that are left are skipped; the
copies that were recorded then cover exactly what was marked. -/
def upload (d : Device σ) (guest : GuestMemory) (trace : ReadTrace) (submission : Nat)
    (ranges : List PageRange) : Action Replica UploadError σ Unit := do
  match ranges.head?, ranges.getLast? with
  | some first, some last =>
    Action.check (PageRange.checkOrder ranges)
    let stop ← Action.check last.stop?
    let replica ← Action.subject
    declare .transferDestination
      ⟨first.start <<< replica.pageBits, stop <<< replica.pageBits⟩
    let job : Upload := ⟨guest, trace, replica.buffer, replica.pageBits, submission⟩
    match ← withPool (Action.violate .shutDown) (job.stage d ranges) with
    | none => return ()
    | some failure =>
      Action.emit [.notice (.uploadFailed (.stagingAllocation failure))]
      Action.fail (.stagingAllocation failure)
  | _, _ => return ()

/-! ## Submissions -/

/-- The device has completed all submissions up to `completed`: their staging
pages can be written again. -/
def submissionCompleted (completed : Nat) : Action Replica ε σ Unit :=
  withPool (return ()) (Action.update (Staging.Pool.reclaim completed))

/-- A submission is about to be made: the device has to see what was staged for it. -/
def submissionEnded (d : Device σ) : Action Replica StagingError σ Unit := do
  match ← (withPool (return ()) (Staging.Pool.flush d)).attempt with
  | .ok () => return ()
  | .error failure =>
    Action.emit [.notice (.flushFailed failure)]
    Action.fail failure

/-! ## The end -/

/-- Gives the staging pages and then the buffer back.  Later shutdowns do nothing. -/
def shutdown (d : Device σ) : Action Replica ε σ Unit := do
  Action.update fun r => { r with access := r.access.reset }
  withPool (return ()) (Staging.Pool.destroy d)
  Action.update fun r => { r with pool := none }
  let replica ← Action.subject
  match replica.store with
  | none => return ()
  | some store =>
    let _ ← store.destroy d
    Action.update fun r => { r with store := none }

end Replica

end GuestReplica
